import VariableReport.Proofs.Notebook.Expression
import VariableReport.Proofs.Records.Build
import VariableReport.Standard

/-!
# Annotations fit together

The four steps add annotations to the records of a snapshot and take nothing away, and what they
add to one record fits together (`Record.Coherent`). After the expressions each step sets an
annotation of its own and reads none that another step sets. So the records of a run are described
by the steps that have been taken (`upTo`): a step that is taken, for the first time or once
more, adds its annotation and nothing else (`run_stage`). By induction the order of the steps does
not matter, and neither does their number; all steps over the finished records change nothing
(`coherent_of_build`).
-/

namespace VariableReport
open Outcome

/-- What a record has from its snapshot. -/
def Record.given (r : Record) : Text × Text × Text := (r.name, r.value, r.type)

/-- The annotations of a record say the same of its assignment and its value as the cells do. -/
structure Record.Coherent [Host] [Matrix.Arrays] (cells : List Cell) (r : Record) : Prop where
  replaced : r.replaced.isSome = r.expression.isSome
  cellIndex : r.cellIndex.isSome = r.expression.isSome
  line : r.line.isSome = r.expression.isSome
  expression : ∀ t, r.expression = some t → t ≠ [] ∧ Text.trim t = t
  inCode : ∀ i, r.cellIndex = some i → ∃ n : Nat, i = n ∧ ∃ c, cells[n]? = some c ∧ c.kind = .code
  latexValue : Matrix.latex? r.value = .ok r.latexValue
  tableItems : r.tableItems ≠ some []

namespace Records
open Source Notebook

variable {rs base : Records} {r b : Record} {s : Settings} {snapshot : Snapshot}
  {cells : List Cell} {ds : List Definition} {found : List (Text × List Text)} {keyword : Text}

/-! ### Labels -/

theorem ne_nil_of_labels? [Host] {comment : Text} {labels : List Text}
    (h : Directive.labels? keyword comment = .ok (some labels)) : labels ≠ [] := by
  unfold Directive.labels? at h
  split at h
  · cases h
  obtain ⟨items?, -, h⟩ := bind_eq_ok.1 h
  split at h
  · cases h
  · cases h
  next items hitems =>
    obtain ⟨ls, hls, h⟩ := bind_eq_ok.1 h
    cases h
    rintro rfl
    rw [mapM_eq_ok_iff, List.forall₂_nil_right_iff] at hls
    exact hitems hls

theorem ne_nil_of_lastLabels? [Host] {comments : List Text} {labels : List Text}
    (h : lastLabels? keyword comments = .ok (some labels)) : labels ≠ [] := by
  obtain ⟨all, hall, h⟩ := bind_eq_ok.1 h
  have hmem : labels ∈ all.filterMap id := List.mem_of_getLast? (Except.ok.inj h)
  obtain ⟨found?, hfound, rfl⟩ := List.mem_filterMap.1 hmem
  obtain ⟨comment, -, hcomment⟩ := exists_of_mem_forall₂ (mapM_eq_ok_iff.1 hall).flip hfound
  exact ne_nil_of_labels? hcomment

theorem ne_nil_of_statementTable? [Host] {st : Statement} {e : Text × List Text}
    (h : statementTable? keyword st = .ok (some e)) : e.2 ≠ [] := by
  obtain ⟨labels?, hlabels, h⟩ := bind_eq_ok.1 h
  cases labels? with
  | none => cases h
  | some labels =>
    obtain ⟨x, -, rfl⟩ := Option.map_eq_some_iff.1 (Except.ok.inj h)
    exact ne_nil_of_lastLabels? hlabels

theorem ne_nil_of_cellTables [Host] {c : Cell} {e : Text × List Text} {es : List (Text × List Text)}
    (h : cellTables keyword c = .ok es) (he : e ∈ es) : e.2 ≠ [] := by
  unfold cellTables at h
  split at h
  · obtain ⟨t, -, h⟩ := bind_eq_ok.1 h
    obtain ⟨all, hall, h⟩ := bind_eq_ok.1 h
    cases h
    obtain ⟨e?, he?, rfl⟩ := List.mem_filterMap.1 he
    obtain ⟨st, -, hst⟩ := exists_of_mem_forall₂ (mapM_eq_ok_iff.1 hall).flip he?
    exact ne_nil_of_statementTable? hst
  · cases h
    contradiction

/-- A directive with no labels is none, so a name that is labelled has labels. -/
theorem ne_nil_of_tables [Host] {e : Text × List Text} (h : tables keyword cells = .ok found)
    (he : e ∈ found) : e.2 ≠ [] := by
  obtain ⟨all, hall, h⟩ := bind_eq_ok.1 h
  cases h
  obtain ⟨es, hes, he⟩ := List.mem_flatten.1 he
  obtain ⟨c, -, hc⟩ := exists_of_mem_forall₂ (mapM_eq_ok_iff.1 hall).flip hes
  exact ne_nil_of_cellTables hc he

/-! ### One record -/

theorem expression_of_mem_definitions {d : Definition} (hds : definitions cells = .ok ds)
    (hd : d ∈ ds) : d.expression ≠ [] ∧ Text.trim d.expression = d.expression := by
  obtain ⟨-, -, -, t, -, st, -, hst⟩ := statement_of_mem_definitions hds hd
  obtain ⟨⟨name, rhs⟩, hassignment, hd⟩ := Option.map_eq_some_iff.1 hst
  obtain ⟨-, htrimmed, hne⟩ := rhs_of_assignment? hassignment
  rw [← hd]
  exact ⟨hne, Text.trim_eq_self htrimmed⟩

section
variable [Host] [Matrix.Arrays]

theorem Annotates.given (h : Annotates ds found rs b r) : r.given = b.given := by
  rw [Record.given, h.name, h.value, h.type, Record.given]

/-- An annotated record is what its own annotations are made of. -/
theorem Annotates.self (h : Annotates ds found rs b r) : Annotates ds found rs r r where
  name := rfl
  value := rfl
  type := rfl
  expression := h.name ▸ h.expression
  cellIndex := h.name ▸ h.cellIndex
  line := h.name ▸ h.line
  latexValue := h.value ▸ h.latexValue
  replaced := h.replaced
  tableItems := h.name ▸ h.tableItems

theorem Annotates.coherent (h : Annotates ds found rs b r) (hds : definitions cells = .ok ds)
    (hfound : tables keyword cells = .ok found) : r.Coherent cells where
  replaced := by rw [h.replaced, substitute?, substituteBy?, Option.isSome_map]
  cellIndex := by rw [h.cellIndex, h.expression, Option.isSome_map, Option.isSome_map]
  line := by rw [h.line, h.expression, Option.isSome_map, Option.isSome_map]
  expression := fun t ht => by
    rw [h.expression] at ht
    obtain ⟨d, hd, rfl⟩ := Option.map_eq_some_iff.1 ht
    exact expression_of_mem_definitions hds (lastDefinition?_eq_some_iff.1 hd).2.mem
  inCode := fun i hi => by
    rw [h.cellIndex] at hi
    obtain ⟨d, hd, rfl⟩ := Option.map_eq_some_iff.1 hi
    exact ⟨_, rfl, code_of_mem_definitions hds (lastDefinition?_eq_some_iff.1 hd).2.mem⟩
  latexValue := h.value ▸ h.latexValue
  tableItems := fun hnil => by
    rw [h.tableItems] at hnil
    obtain ⟨labels, hlabels, hmap⟩ := Option.map_eq_some_iff.1 hnil
    obtain rfl := List.map_eq_nil_iff.1 hmap
    obtain ⟨later, earlier, hsplit, -⟩ := List.lookup_eq_some_iff.1 hlabels
    have hmem : (b.name, []) ∈ found := by
      rw [← List.mem_reverse, hsplit]
      simp
    exact ne_nil_of_tables hfound hmem rfl

end

/-! ### Stages -/

/-- The steps that follow the expressions. -/
inductive Step
  | matrices
  | substitution
  | tables
  deriving DecidableEq, Repr

/-- The record with the annotations of the steps `done` only. -/
def upTo (done : List Step) (r : Record) : Record :=
  { r with
    latexValue := if .matrices ∈ done then r.latexValue else none
    replaced := if .substitution ∈ done then r.replaced else none
    tableItems := if .tables ∈ done then r.tableItems else none }

theorem name_upTo (done : List Step) (r : Record) : (upTo done r).name = r.name := rfl

theorem upTo_eq_self {done : List Step} (h : ∀ step, step ∈ done) (r : Record) :
    upTo done r = r := by
  simp [upTo, h]

/-- The collection as it is when the steps `done` have been taken. -/
def stage (rs : Records) (done : List Step) : Records := rs.annotate (upTo done) (name_upTo done)

theorem toList_stage (rs : Records) (done : List Step) :
    (rs.stage done).toList = rs.toList.map (upTo done) := rfl

theorem stage_eq_self {done : List Step} (h : ∀ step, step ∈ done) (rs : Records) :
    rs.stage done = rs := by
  refine eq_of_toList ?_
  rw [toList_stage, List.map_congr_left fun r _ => upTo_eq_self h r, List.map_id']

/-- A step that tells its annotation record by record leads from one stage to another. -/
theorem annotate_stage {done done' : List Step} {k : Record → Record}
    {hk : ∀ r, (k r).name = r.name} (h : ∀ r ∈ rs.toList, k (upTo done r) = upTo done' r) :
    (rs.stage done).annotate k hk = rs.stage done' := by
  refine eq_of_toList ?_
  change ((rs.stage done).toList.map k) = _
  rw [toList_stage, toList_stage, List.map_map]
  exact List.map_congr_left h

theorem get?_shown_stage (done : List Step) (name : Text) :
    ((rs.stage done).get? name).map Record.shown = (rs.get? name).map Record.shown := by
  refine get?_map_congr ?_ name
  rw [toList_stage, List.forall₂_map_left_iff, List.forall₂_same]
  exact fun r _ => ⟨rfl, rfl⟩

section
variable [Host] [Matrix.Arrays]

/-! ### Steps -/

def Step.run (s : Settings) (cells : List Cell) : Step → Records → Except Failure Records
  | .matrices, rs => rs.attachMatrices
  | .substitution, rs => .ok rs.attachReplaced
  | .tables, rs => rs.attachTables s.tableDirective cells

/-- Take the steps of a list one after the other. -/
def runSteps (s : Settings) (cells : List Cell) : List Step → Records → Except Failure Records
  | [], rs => .ok rs
  | step :: steps, rs => do runSteps s cells steps (← step.run s cells rs)

theorem enrich_eq_runSteps : rs.enrich s cells =
    (rs.attachExpressions cells >>= runSteps s cells [.matrices, .substitution, .tables]) := by
  unfold enrich
  refine congrArg _ (funext fun rs => ?_)
  change _ = rs.attachMatrices >>= fun rs => runSteps s cells [.substitution, .tables] rs
  refine congrArg _ (funext fun rs => ?_)
  change _ = rs.attachReplaced.attachTables s.tableDirective cells >>= Except.ok
  cases rs.attachReplaced.attachTables s.tableDirective cells <;> rfl

/-- Every record has been annotated from itself, the cells and the other records. -/
def Annotated (ds : List Definition) (found : List (Text × List Text)) (rs : Records) : Prop :=
  ∀ r ∈ rs.toList, Annotates ds found rs r r

/-- A step adds its annotation to those of the steps that have been taken, and nothing else. -/
theorem run_stage (h : rs.Annotated ds found) (hfound : tables s.tableDirective cells = .ok found)
    (step : Step) (done : List Step) :
    step.run s cells (rs.stage done) = .ok (rs.stage (step :: done)) := by
  cases step with
  | matrices =>
    refine attachMatrices_eq_ok_iff.2 ?_
    rw [toList_stage, toList_stage, List.forall₂_map_left_iff, List.forall₂_map_right_iff,
      List.forall₂_same]
    refine fun r hr => classify_eq_ok_iff.2 ⟨r.latexValue, (h r hr).latexValue, ?_⟩
    cases hl : r.latexValue <;> simp [upTo, hl]
  | substitution =>
    refine congrArg Except.ok (annotate_stage fun r hr => ?_)
    have hsubstitute : (rs.stage done).substitute? (upTo done r) = r.replaced :=
      (substitute?_of_shown (get?_shown_stage done) rfl).trans (h r hr).replaced.symm
    rw [substitute?] at hsubstitute
    rw [replaceIn_eq, hsubstitute]
    cases hl : r.replaced <;> simp [upTo, hl]
  | tables =>
    change attachTables _ _ _ = _
    rw [attachTables, hfound]
    refine congrArg Except.ok (annotate_stage fun r hr => ?_)
    have hlabels : (found.reverse.lookup (upTo done r).name).map (List.map some) = r.tableItems :=
      (h r hr).tableItems.symm
    rw [labelFrom_eq, hlabels]
    cases hl : r.tableItems <;> simp [upTo, hl]

/-- A run of steps adds their annotations, in whatever order they are taken. -/
theorem runSteps_stage (h : rs.Annotated ds found)
    (hfound : tables s.tableDirective cells = .ok found) (steps done : List Step) :
    runSteps s cells steps (rs.stage done) = .ok (rs.stage (steps.reverse ++ done)) := by
  induction steps generalizing done with
  | nil => rfl
  | cons step steps ih =>
    rw [runSteps, run_stage h hfound, List.reverse_cons, List.append_assoc, List.singleton_append]
    exact ih (step :: done)

/-- With every step among them, they end in the annotated collection. -/
theorem runSteps_eq_ok (h : rs.Annotated ds found)
    (hfound : tables s.tableDirective cells = .ok found) {steps : List Step}
    (hsteps : ∀ step, step ∈ steps) (done : List Step) :
    runSteps s cells steps (rs.stage done) = .ok rs := by
  rw [runSteps_stage h hfound]
  exact congrArg Except.ok (stage_eq_self (fun step => by simp [hsteps step]) rs)

/-! ### Expressions -/

/-- The expressions alone make of a bare record the one for which no step has been taken. -/
theorem Annotates.defineFrom_eq_upTo (h : Annotates ds found rs b r) (hb : b.IsBare) :
    defineFrom ds b = upTo [] r := by
  rw [defineFrom_eq, ← h.expression, ← h.cellIndex, ← h.line, hb, upTo, h.name, h.value, h.type]
  simp

/-- The expressions that are already there are found again. -/
theorem Annotates.defineFrom_eq_self (h : Annotates ds found rs r r) : defineFrom ds r = r := by
  rw [defineFrom_eq, ← h.expression, ← h.cellIndex, ← h.line]
  simp

theorem attachDefinitions_eq_stage (h0 : ofSnapshot snapshot = .ok base)
    (h : List.Forall₂ (Annotates ds found rs) base.toList rs.toList) :
    base.attachDefinitions ds = rs.stage [] := by
  refine eq_of_toList ?_
  have hbare := (List.forall₂_and_left _ _).2 ⟨fun b hb => isBare_ofSnapshot h0 hb, h⟩
  have hpairs : List.Forall₂ (fun b r => defineFrom ds b = upTo [] r) base.toList rs.toList :=
    hbare.imp fun _ _ h => h.2.defineFrom_eq_upTo h.1
  rwa [← List.forall₂_eq_eq_eq, attachDefinitions, annotate, toList_stage,
    List.forall₂_map_left_iff, List.forall₂_map_right_iff]

theorem Annotated.attachDefinitions_eq_self (h : rs.Annotated ds found) :
    rs.attachDefinitions ds = rs := by
  refine eq_of_toList ?_
  change rs.toList.map (defineFrom ds) = rs.toList
  rw [List.map_congr_left fun r hr => (h r hr).defineFrom_eq_self, List.map_id']

/-! ### All steps -/

/-- Built records are those of the snapshot with annotations that fit together. Taking all steps
over them changes nothing, and the steps after the expressions lead to them in any order. -/
theorem coherent_of_build (h : build s snapshot cells = .ok rs) :
    ∃ base, ofSnapshot snapshot = .ok base ∧
      rs.toList.map Record.given = base.toList.map Record.given ∧
      (∀ r ∈ rs.toList, r.Coherent cells) ∧ rs.enrich s cells = .ok rs ∧
      ∀ order : List Step, (∀ step, step ∈ order) →
        (base.attachExpressions cells >>= runSteps s cells order) = .ok rs := by
  obtain ⟨base, ds, found, h0, hds, hfound, hrs⟩ := build_eq_ok_iff.1 h
  have hannotated : rs.Annotated ds found := fun r hr => by
    obtain ⟨b, -, hb⟩ := exists_of_mem_forall₂ hrs.flip hr
    exact hb.self
  refine ⟨base, h0, ?_, fun r hr => (hannotated r hr).coherent hds hfound, ?_,
    fun order horder => ?_⟩
  · rw [← List.forall₂_eq_eq_eq, List.forall₂_map_left_iff, List.forall₂_map_right_iff]
    exact (hrs.imp fun _ _ hr => hr.given.symm).flip.imp fun _ _ hr => hr.symm
  · rw [enrich_eq_runSteps, attachExpressions, hds]
    change runSteps s cells _ (rs.attachDefinitions ds) = _
    rw [hannotated.attachDefinitions_eq_self]
    have hall : ∀ step, step ∈ [Step.matrices, Step.substitution, Step.tables] := by
      rintro (_ | _ | _) <;> decide
    conv_lhs => rw [← stage_eq_self hall rs]
    exact runSteps_eq_ok hannotated hfound hall _
  · rw [attachExpressions, hds]
    change runSteps s cells order (base.attachDefinitions ds) = _
    rw [attachDefinitions_eq_stage h0 hrs]
    exact runSteps_eq_ok hannotated hfound horder []

end

/-- A notebook that assigns `a` twice, to itself and then through `b`, which goes through `a`. -/
def circularCells : List Cell :=
  [.ofText .markdown "a = 0".toList, .ofText .code "a = a + 1\n# table: [\"p\"]\nb = 2*a".toList,
    .ofText .code "a = b  # again".toList]

/-- Its variables, the second of which is a matrix. -/
def circularSnapshot : Snapshot :=
  [("a".toList, .str "4".toList), ("b".toList, .str "[[8]]".toList), ("c".toList, .int 5)]

theorem coherent_of_build_circular : ∃ rs base,
    build {} circularSnapshot circularCells = .ok rs ∧ ofSnapshot circularSnapshot = .ok base ∧
    (∀ r ∈ rs.toList, r.Coherent circularCells) ∧
    (base.attachExpressions circularCells >>=
      runSteps {} circularCells [.tables, .substitution, .matrices]) = .ok rs := by
  have hbuilt : (build {} circularSnapshot circularCells).toOption.isSome = true := by
    decide +kernel
  obtain ⟨rs, hb⟩ := exists_eq_ok hbuilt
  obtain ⟨base, h0, -, hcoherent, -, horder⟩ := coherent_of_build hb
  exact ⟨rs, base, hb, h0, hcoherent, horder _ (by rintro (_ | _ | _) <;> decide)⟩

end Records

end VariableReport
