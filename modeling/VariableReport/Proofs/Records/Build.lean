import VariableReport.Records.Build
import VariableReport.Proofs.Notebook.Definition
import VariableReport.Proofs.Records.Reachability
import VariableReport.Proofs.Records.Snapshot

/-!
# Built records

The records of a snapshot carry nothing but a name, a value and a type, and the four steps keep
these and add the rest. What a step adds to a record can be told from the record, from what the
cells say of its name, and, for the replaced form, from the expressions and values of the other
records (`Annotates`). None of it is told from what another step has added, so a collection is built
from a snapshot exactly when each of its records is annotated in this way (`build_eq_ok_iff`), and
there is only one such collection (`eq_of_annotates`). In particular a built record has the
place of the last definition of its name, and none when there is no definition
(`placedBy_of_build`).
-/

namespace VariableReport
open Outcome

/-- What substitution reads of a record. -/
def Record.shown (r : Record) : Text × Text × Option Text := (r.name, r.value, r.expression)

namespace Records
open Source Notebook

variable {rs rs' base : Records} {r r' b : Record} {s : Settings} {snapshot : Snapshot}
  {cells : List Cell} {ds : List Definition} {found : List (Text × List Text)}

theorem replaceFrom_congr {f g : Text → Option Text} {t : Text} {refs : List Reference}
    (h : ∀ r ∈ refs, f r.name = g r.name) (cursor : Nat) :
    replaceFrom f t cursor refs = replaceFrom g t cursor refs := by
  induction refs generalizing cursor with
  | nil => rfl
  | cons r refs ih =>
    rw [List.forall_mem_cons] at h
    rw [replaceFrom, replaceFrom, h.1]
    split
    · rw [ih h.2]
    · rw [ih h.2]

/-- The replaced form is told from what stands for the names that the expression mentions. -/
theorem substitute?_congr (he : r'.expression = r.expression)
    (h : ∀ t name, r.expression = some t → Mentions t name →
      rs'.standIn? rs'.graph r' name = rs.standIn? rs.graph r name) :
    rs'.substitute? r' = rs.substitute? r := by
  unfold substitute? substituteBy?
  rw [he]
  cases ht : r.expression with
  | none => rfl
  | some t =>
    cases hrefs : references? t with
    | none => simp [hrefs]
    | some refs =>
      have hnames : ∀ o ∈ refs, rs'.standIn? rs'.graph r' o.name = rs.standIn? rs.graph r o.name :=
        fun o ho => h t o.name ht (mentions_iff.2 ⟨refs, hrefs, o, ho, rfl⟩)
      simp [hrefs, replaceFrom_congr hnames]

theorem standIn?_eq (g : Graph) (r : Record) (name : Text) : rs.standIn? g r name =
    if g.reaches name r.name = true then none else (rs.get? name).map Record.value := by
  unfold standIn?
  cases rs.get? name <;> simp

theorem reaches_congr (h : ∀ name, (rs'.get? name).map Record.expression =
    (rs.get? name).map Record.expression) (a b : Text) :
    rs'.graph.reaches a b = rs.graph.reaches a b := by
  rw [Bool.eq_iff_iff, reaches_graph_iff, reaches_graph_iff, refers_congr h]

/-- What stands for a name is told from the value of its record and from all expressions. -/
theorem standIn?_congr {name : Text} (hr : r'.name = r.name)
    (he : ∀ name, (rs'.get? name).map Record.expression = (rs.get? name).map Record.expression)
    (hv : (rs'.get? name).map Record.value = (rs.get? name).map Record.value) :
    rs'.standIn? rs'.graph r' name = rs.standIn? rs.graph r name := by
  rw [standIn?_eq, standIn?_eq, reaches_congr he, hr, hv]

theorem get?_map_of_shown {α : Type} (f : Text × Text × Option Text → α)
    (h : ∀ name, (rs'.get? name).map Record.shown = (rs.get? name).map Record.shown)
    (name : Text) : (rs'.get? name).map (f ∘ Record.shown) =
      (rs.get? name).map (f ∘ Record.shown) := by
  rw [← Option.map_map, ← Option.map_map, h]

/-- Collections that show the same for every name replace alike. -/
theorem substitute?_of_shown
    (h : ∀ name, (rs'.get? name).map Record.shown = (rs.get? name).map Record.shown)
    (hr : r'.shown = r.shown) : rs'.substitute? r' = rs.substitute? r := by
  obtain ⟨hname, hrest⟩ := Prod.mk.inj hr
  obtain ⟨-, hexpression⟩ := Prod.mk.inj hrest
  refine substitute?_congr hexpression fun t name _ _ => ?_
  exact standIn?_congr hname (get?_map_of_shown (fun x => x.2.2) h)
    (get?_map_of_shown (fun x => x.2.1) h name)

/-! ### The four steps -/

theorem defineFrom_eq (ds : List Definition) (r : Record) : defineFrom ds r =
    { r with
      expression := ((lastDefinition? r.name ds).map Definition.expression).or r.expression
      cellIndex := ((lastDefinition? r.name ds).map fun d => (d.cellIndex : Int)).or r.cellIndex
      line := ((lastDefinition? r.name ds).map fun d => (d.line : Int)).or r.line } := by
  unfold defineFrom define
  cases lastDefinition? r.name ds <;> rfl

theorem replaceIn_eq (g : Graph) (r : Record) :
    rs.replaceIn g r = { r with replaced := (rs.substituteBy? g r).or r.replaced } := by
  unfold replaceIn
  cases rs.substituteBy? g r <;> rfl

theorem labelFrom_eq (found : List (Text × List Text)) (r : Record) : labelFrom found r =
    { r with
      tableItems := ((found.reverse.lookup r.name).map (List.map some)).or r.tableItems } := by
  unfold labelFrom
  cases found.reverse.lookup r.name <;> rfl

section
variable [Host] [Matrix.Arrays]

theorem classify_eq_ok_iff : classify r = .ok r' ↔
    ∃ m, Matrix.latex? r.value = .ok m ∧ r' = { r with latexValue := m.or r.latexValue } := by
  unfold classify
  rw [bind_eq_ok]
  refine exists_congr fun m => and_congr_right fun _ => ?_
  cases m with
  | none => exact ⟨fun h => (Except.ok.inj h).symm, fun h => congrArg Except.ok h.symm⟩
  | some latex => exact ⟨fun h => (Except.ok.inj h).symm, fun h => congrArg Except.ok h.symm⟩

theorem classifyAll_eq_iff {records done : List Record} : classifyAll records = (done, none) ↔
    List.Forall₂ (fun r r' => classify r = .ok r') records done := by
  induction records generalizing done with
  | nil => simp [classifyAll, eq_comm]
  | cons r rest ih =>
    rw [classifyAll, List.forall₂_cons_left_iff]
    cases hr : classify r with
    | error e => simp
    | ok r' =>
      cases hrest : classifyAll rest with
      | mk others failure =>
        simp only [hrest, Prod.mk.injEq] at ih
        simp only [← ih, Prod.mk.injEq, Except.ok.injEq]
        constructor
        · rintro ⟨rfl, rfl⟩
          exact ⟨r', others, rfl, ⟨rfl, rfl⟩, rfl⟩
        · rintro ⟨_, _, rfl, ⟨rfl, rfl⟩, rfl⟩
          exact ⟨rfl, rfl⟩

theorem attachMatrices_eq_ok_iff : rs.attachMatrices = .ok rs' ↔
    List.Forall₂ (fun r r' => classify r = .ok r') rs.toList rs'.toList := by
  obtain ⟨records, hrecords⟩ := rs'
  rw [← classifyAll_eq_iff, Prod.ext_iff]
  unfold attachMatrices attachMatricesPartly
  cases (classifyAll rs.toList).2 <;> simp

/-! ### All steps -/

/-- A record as a run leaves it, when the cells have the definitions `ds` and the table labels
`found` and `rs` are all records: what it is made of is the record `b` of the snapshot. -/
structure Annotates (ds : List Definition) (found : List (Text × List Text)) (rs : Records)
    (b r : Record) : Prop where
  name : r.name = b.name
  value : r.value = b.value
  type : r.type = b.type
  expression : r.expression = (lastDefinition? b.name ds).map Definition.expression
  cellIndex : r.cellIndex = (lastDefinition? b.name ds).map fun d => (d.cellIndex : Int)
  line : r.line = (lastDefinition? b.name ds).map fun d => (d.line : Int)
  latexValue : Matrix.latex? b.value = .ok r.latexValue
  replaced : r.replaced = rs.substitute? r
  tableItems : r.tableItems = (found.reverse.lookup b.name).map (List.map some)

/-- The steps annotate a bare record, as long as the other records show what they show in the
end. -/
theorem annotates_of_classify (hb : b.IsBare) (hc : classify (defineFrom ds b) = .ok r)
    (h : ∀ name, (rs.get? name).map Record.shown = (rs'.get? name).map Record.shown) :
    Annotates ds found rs' b (labelFrom found (rs.replaceIn rs.graph r)) := by
  obtain ⟨m, hm, rfl⟩ := classify_eq_ok_iff.1 hc
  rw [defineFrom_eq] at hm ⊢
  rw [replaceIn_eq, labelFrom_eq]
  unfold Record.IsBare at hb
  generalize b.name = name, b.value = value, b.type = type at hb
  subst hb
  exact ⟨rfl, rfl, rfl, Option.or_none, Option.or_none, Option.or_none, by simpa using hm,
    Option.or_none.trans (substitute?_of_shown h rfl), Option.or_none⟩

theorem Annotates.eq (h : Annotates ds found rs b r) (h' : Annotates ds found rs' b r')
    (hreplaced : rs'.substitute? r' = rs.substitute? r) : r' = r := by
  have hlatex : r'.latexValue = r.latexValue :=
    Except.ok.inj (h'.latexValue.symm.trans h.latexValue)
  have hrep : r'.replaced = r.replaced :=
    h'.replaced.trans (hreplaced.trans h.replaced.symm)
  have hname := h'.name.trans h.name.symm
  have hvalue := h'.value.trans h.value.symm
  have htype := h'.type.trans h.type.symm
  have hexpression := h'.expression.trans h.expression.symm
  have hcell := h'.cellIndex.trans h.cellIndex.symm
  have hline := h'.line.trans h.line.symm
  have htable := h'.tableItems.trans h.tableItems.symm
  cases r
  cases r'
  exact Record.mk.injEq .. ▸ ⟨hname, hvalue, htype, hexpression, hrep, hlatex, htable, hcell, hline⟩

theorem Annotates.shown_eq (h : Annotates ds found rs b r) : r.shown =
    (b.name, b.value, (lastDefinition? b.name ds).map Definition.expression) := by
  rw [Record.shown, h.name, h.value, h.expression]

/-- Records that are made of the same ones show the same for every name. -/
theorem get?_shown_of_annotates {found' : List (Text × List Text)} {cs cs' : Records}
    (h : List.Forall₂ (Annotates ds found cs) base.toList rs.toList)
    (h' : List.Forall₂ (Annotates ds found' cs') base.toList rs'.toList) (name : Text) :
    (rs'.get? name).map Record.shown = (rs.get? name).map Record.shown := by
  have hsame : List.Forall₂ (· = ·) base.toList base.toList := List.forall₂_refl _
  refine get?_map_congr (forall₂_of_partners hsame h' h ?_) name
  rintro b _ r' r rfl hr' hr
  exact ⟨hr'.name.trans hr.name.symm, hr'.shown_eq.trans hr.shown_eq.symm⟩

/-- There is one collection of annotated records. -/
theorem eq_of_annotates (h : List.Forall₂ (Annotates ds found rs) base.toList rs.toList)
    (h' : List.Forall₂ (Annotates ds found rs') base.toList rs'.toList) : rs = rs' := by
  have hshown := get?_shown_of_annotates h' h
  have hsame : List.Forall₂ (· = ·) base.toList base.toList := List.forall₂_refl _
  refine eq_of_toList (List.forall₂_eq_eq_eq ▸ forall₂_of_partners hsame h h' ?_)
  rintro b _ r r' rfl hr hr'
  exact hr'.eq hr (substitute?_of_shown hshown (hr.shown_eq.trans hr'.shown_eq.symm))

/-- The cells are read first; then only a value can stop the steps. -/
theorem build_eq (h0 : ofSnapshot snapshot = .ok base) (hds : definitions cells = .ok ds)
    (hfound : tables s.tableDirective cells = .ok found) :
    build s snapshot cells = (base.attachDefinitions ds).attachMatrices.map fun rs =>
      rs.attachReplaced.annotate (labelFrom found) (name_labelFrom found) := by
  unfold build enrich attachExpressions attachTables
  rw [h0, hds, hfound]
  cases hrs : (base.attachDefinitions ds).attachMatrices <;>
    simp [hrs, bind, Except.bind, Except.map]

theorem annotates_of_attachMatrices (h0 : ofSnapshot snapshot = .ok base)
    (h : (base.attachDefinitions ds).attachMatrices = .ok rs) :
    List.Forall₂
      (Annotates ds found (rs.attachReplaced.annotate (labelFrom found) (name_labelFrom found)))
      base.toList (rs.attachReplaced.annotate (labelFrom found) (name_labelFrom found)).toList := by
  have hlist : (rs.attachReplaced.annotate (labelFrom found) (name_labelFrom found)).toList =
      rs.toList.map fun r => labelFrom found (rs.replaceIn rs.graph r) := by
    simp [annotate, attachReplaced]
  have hshown (name : Text) : (rs.get? name).map Record.shown =
      ((rs.attachReplaced.annotate (labelFrom found) (name_labelFrom found)).get? name).map
        Record.shown := by
    refine get?_map_congr ?_ name
    rw [hlist, List.forall₂_map_right_iff, List.forall₂_same]
    intro r _
    rw [labelFrom_eq, replaceIn_eq]
    exact ⟨rfl, rfl⟩
  have hclassify := attachMatrices_eq_ok_iff.1 h
  rw [attachDefinitions, annotate, List.forall₂_map_left_iff] at hclassify
  rw [hlist, List.forall₂_map_right_iff]
  refine ((List.forall₂_and_left _ _).2 ⟨fun b hb => isBare_ofSnapshot h0 hb, hclassify⟩).imp ?_
  exact fun b r h => annotates_of_classify h.1 h.2 hshown

theorem exists_attachMatrices (h : ∀ r ∈ rs.toList, ∃ m, Matrix.latex? r.value = .ok m) :
    ∃ rs', rs.attachMatrices = .ok rs' := by
  have key (records : List Record) (h : ∀ r ∈ records, ∃ m, Matrix.latex? r.value = .ok m) :
      (classifyAll records).2 = none := by
    induction records with
    | nil => rfl
    | cons r rest ih =>
      rw [List.forall_mem_cons] at h
      obtain ⟨m, hm⟩ := h.1
      rw [classifyAll, classify_eq_ok_iff.2 ⟨m, hm, rfl⟩]
      exact ih h.2
  unfold attachMatrices attachMatricesPartly
  rw [key _ h]
  exact ⟨_, rfl⟩

/-- A collection is built exactly when the snapshot and the cells can be read and its records are
the annotated records of the snapshot. -/
theorem build_eq_ok_iff : build s snapshot cells = .ok rs ↔
    ∃ base ds found, ofSnapshot snapshot = .ok base ∧ definitions cells = .ok ds ∧
      tables s.tableDirective cells = .ok found ∧
      List.Forall₂ (Annotates ds found rs) base.toList rs.toList := by
  constructor
  · intro h
    obtain ⟨base, h0, henrich⟩ := bind_eq_ok.1 h
    obtain ⟨rs₁, h1, hrest⟩ := bind_eq_ok.1 henrich
    obtain ⟨ds, hds, -⟩ := bind_eq_ok.1 h1
    obtain ⟨rs₂, -, h3⟩ := bind_eq_ok.1 hrest
    obtain ⟨found, hfound, -⟩ := bind_eq_ok.1 h3
    rw [build_eq h0 hds hfound] at h
    obtain ⟨rs₂, h2, rfl⟩ := map_eq_ok.1 h
    exact ⟨base, ds, found, h0, hds, hfound, annotates_of_attachMatrices h0 h2⟩
  · rintro ⟨base, ds, found, h0, hds, hfound, h⟩
    have hvalues : ∀ r ∈ (base.attachDefinitions ds).toList,
        ∃ m, Matrix.latex? r.value = .ok m := by
      intro r hr
      obtain ⟨b, hb, rfl⟩ := List.mem_map.1 hr
      obtain ⟨r, -, hr⟩ := exists_of_mem_forall₂ h hb
      rw [defineFrom_eq]
      exact ⟨_, hr.latexValue⟩
    obtain ⟨rs₂, h2⟩ := exists_attachMatrices hvalues
    rw [build_eq h0 hds hfound, h2]
    refine congrArg Except.ok ?_
    exact eq_of_annotates (annotates_of_attachMatrices h0 h2) h

/-! ### Places -/

/-- The record has the place that the definitions of its name give. -/
def PlacedBy (ds : List Definition) (r : Record) : Prop :=
  match lastDefinition? r.name ds with
  | some d => r.cellIndex = some (d.cellIndex : Int) ∧ r.line = some (d.line : Int)
  | none => r.cellIndex = none

theorem Annotates.placedBy (h : Annotates ds found rs b r) : PlacedBy ds r := by
  unfold PlacedBy
  rw [h.name, h.cellIndex, h.line]
  cases lastDefinition? b.name ds with
  | some d => exact ⟨rfl, rfl⟩
  | none => rfl

/-- Building finds the definitions, and the records have the places that these give. -/
theorem placedBy_of_build (h : build s snapshot cells = .ok rs) :
    ∃ ds, definitions cells = .ok ds ∧ ∀ r ∈ rs.toList, PlacedBy ds r := by
  obtain ⟨base, ds, found, -, hds, -, h⟩ := build_eq_ok_iff.1 h
  refine ⟨ds, hds, fun r hr => ?_⟩
  obtain ⟨b, -, hb⟩ := exists_of_mem_forall₂ h.flip hr
  exact hb.placedBy

end

end Records

end VariableReport
