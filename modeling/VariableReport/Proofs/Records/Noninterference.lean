import VariableReport.Proofs.Records.Build
import VariableReport.Standard

/-!
# A changed value reaches its direct users

Two snapshots say the same of all variables, except that they give one of them, `n`, two values.
Their records then agree in everything but the value of `n` itself and the replaced forms of the
records whose expressions hold a reference to `n` that is not part of a cycle (`agreesBut_of_build`).
No step passes on what an earlier one has derived: expressions come from the cells, and so do the
references between records; a replaced form has values in it and never replaced forms.
-/

namespace VariableReport.Records
open Relation Outcome Notebook Source

/-- The entry of a variable whose value is a text, and whose type is given by `type`. -/
inductive Says : Json → Text → Json → Prop
  | object (members : List (Text × Json)) (value : Text)
      (h : (Json.find? "value".toList members).getD (.str []) = .str value) :
      Says (.object members) value
        ((Json.find? "type".toList members).getD (.str "Unknown".toList))
  | text (value : Text) : Says (.str value) value (.str "str".toList)

/-- Two entries of one name that say the same, except for the value where the name is `n`. -/
def SaysSameBut (n : Text) (e e' : Text × Json) : Prop :=
  e.1 = e'.1 ∧ ∃ value value' type, Says e.2 value type ∧ Says e'.2 value' type ∧
    (e.1 ≠ n → value' = value)

/-- The value of `n` stands in the replaced form of the record of `a`: its expression refers to
`n`, from where no references lead back to `a`. -/
def Uses (rs : Records) (a n : Text) : Prop := rs.Refers a n ∧ ¬ReflTransGen rs.Refers n a

/-- Two records that are the same, except for the value where the name is `n`. -/
structure SameBut (n : Text) (r r' : Record) : Prop where
  name : r'.name = r.name
  type : r'.type = r.type
  value : r.name ≠ n → r'.value = r.value

/-- Two records among `rs` and others that agree in all that does not hang on the value of `n`. -/
structure AgreesBut (n : Text) (rs : Records) (r r' : Record) : Prop extends SameBut n r r' where
  expression : r'.expression = r.expression
  tableItems : r'.tableItems = r.tableItems
  cellIndex : r'.cellIndex = r.cellIndex
  line : r'.line = r.line
  latexValue : r.name ≠ n → r'.latexValue = r.latexValue
  replaced : ¬rs.Uses r.name n → r'.replaced = r.replaced

variable {n : Text} {s : Settings} {snapshot snapshot' : Snapshot} {cells : List Cell}
  {rs rs' base base' : Records} {r r' b b' : Record}

theorem entryRecord_of_entry {name value : Text} {entry type : Json} (h : Says entry value type) :
    entryRecord name entry = (entryText type).map fun type => { name, value, type } := by
  cases h with
  | object members value h =>
    simp only [entryRecord, h]
    cases entryText ((Json.find? "type".toList members).getD (.str "Unknown".toList)) <;> rfl
  | text value => rfl

theorem sameBut_of_entry {e e' : Text × Json} (h : SaysSameBut n e e')
    (hb : entryRecord e.1 e.2 = .ok b) (hb' : entryRecord e'.1 e'.2 = .ok b') :
    SameBut n b b' := by
  obtain ⟨hname, value, value', type, hentry, hentry', hvalue⟩ := h
  rw [entryRecord_of_entry hentry, map_eq_ok] at hb
  rw [entryRecord_of_entry hentry', map_eq_ok] at hb'
  obtain ⟨t, ht, rfl⟩ := hb
  obtain ⟨t', ht', rfl⟩ := hb'
  exact ⟨hname.symm, Except.ok.inj (ht'.symm.trans ht), hvalue⟩

theorem sameBut_of_ofSnapshot (h : List.Forall₂ (SaysSameBut n) snapshot snapshot')
    (hb : ofSnapshot snapshot = .ok base) (hb' : ofSnapshot snapshot' = .ok base') :
    List.Forall₂ (SameBut n) base.toList base'.toList := by
  obtain ⟨records, hrecords, rfl⟩ := ofSnapshot_eq_ok_iff.1 hb
  obtain ⟨records', hrecords', rfl⟩ := ofSnapshot_eq_ok_iff.1 hb'
  have hfilter := List.rel_filter (p := fun e => !e.1.isEmpty) (q := fun e => !e.1.isEmpty)
    (fun e e' (he : SaysSameBut n e e') => by simp [he.1]) h
  refine forall₂_ofList (fun b b' hb => hb.name.symm) ?_
  exact forall₂_of_partners hfilter hrecords hrecords' fun e e' b b' =>
    sameBut_of_entry

variable {ds : List Definition} {found : List (Text × List Text)}

/-- What stays of two records of one name when the cells annotate them. -/
theorem sameBut_of_annotates [Host] [Matrix.Arrays] {cs cs' : Records} (h : SameBut n b b')
    (hr : Annotates ds found cs b r) (hr' : Annotates ds found cs' b' r') : SameBut n r r' where
  name := by rw [hr'.name, hr.name, h.name]
  type := by rw [hr'.type, hr.type, h.type]
  value := fun hne => by rw [hr'.value, hr.value, h.value (hr.name ▸ hne)]

theorem expression_of_annotates [Host] [Matrix.Arrays] {cs cs' : Records} (h : SameBut n b b')
    (hr : Annotates ds found cs b r) (hr' : Annotates ds found cs' b' r') :
    r'.expression = r.expression := by
  rw [hr'.expression, hr.expression, h.name]

/-- The cells say the same of two records of one name. -/
theorem agreesBut_of_annotates [Host] [Matrix.Arrays] {cs cs' : Records} (h : SameBut n b b')
    (hr : Annotates ds found cs b r) (hr' : Annotates ds found cs' b' r')
    (hreplaced : ¬rs.Uses r.name n → r'.replaced = r.replaced) : AgreesBut n rs r r' where
  toSameBut := sameBut_of_annotates h hr hr'
  expression := expression_of_annotates h hr hr'
  tableItems := by rw [hr'.tableItems, hr.tableItems, h.name]
  cellIndex := by rw [hr'.cellIndex, hr.cellIndex, h.name]
  line := by rw [hr'.line, hr.line, h.name]
  latexValue := fun hne => by
    have hlatex := hr'.latexValue
    rw [h.value (hr.name ▸ hne), hr.latexValue] at hlatex
    exact (Except.ok.inj hlatex).symm
  replaced := hreplaced

/-- A record whose replaced form does not have the value of `n` in it is replaced alike, when
all expressions and all other values are the same. -/
theorem substitute?_eq_of_not_uses (hr : r ∈ rs.toList) (hname : r'.name = r.name)
    (hexpression : r'.expression = r.expression)
    (he : ∀ name, (rs'.get? name).map Record.expression = (rs.get? name).map Record.expression)
    (hv : ∀ name, name ≠ n →
      (rs'.get? name).map Record.value = (rs.get? name).map Record.value)
    (huses : ¬rs.Uses r.name n) : rs'.substitute? r' = rs.substitute? r := by
  refine substitute?_congr hexpression fun t name ht hmentions => ?_
  by_cases hn : name = n
  · subst hn
    rw [standIn?_eq, standIn?_eq, reaches_congr he, hname]
    by_cases hreach : rs.graph.reaches name r.name = true
    · simp [hreach]
    · -- the expression refers to no record, since the reference would be a use
      have hcontains : ¬rs.contains name = true := fun hcontains => huses
        ⟨⟨r, t, get?_eq_some_iff.2 ⟨hr, rfl⟩, ht, hmentions, hcontains⟩,
          fun hchain => hreach (reaches_graph_iff.2 hchain)⟩
      have hnone : rs.get? name = none := by simpa [contains] using hcontains
      have hnone' : rs'.get? name = none := by
        have := he name
        rwa [hnone, Option.map_none, Option.map_eq_none_iff] at this
      simp [hnone, hnone']
  · exact standIn?_congr hname he (hv name hn)

/-- When the value of one variable changes, nothing changes but its own value and its matrix,
and the replaced forms in which the value stands. -/
theorem agreesBut_of_build [Host] [Matrix.Arrays]
    (h : List.Forall₂ (SaysSameBut n) snapshot snapshot')
    (hb : build s snapshot cells = .ok rs) (hb' : build s snapshot' cells = .ok rs') :
    List.Forall₂ (AgreesBut n rs) rs.toList rs'.toList := by
  obtain ⟨base, ds, found, h0, hds, hfound, hrs⟩ := build_eq_ok_iff.1 hb
  obtain ⟨base', ds', found', h0', hds', hfound', hrs'⟩ := build_eq_ok_iff.1 hb'
  obtain rfl := Except.ok.inj (hds.symm.trans hds')
  obtain rfl := Except.ok.inj (hfound.symm.trans hfound')
  have hbase := sameBut_of_ofSnapshot h h0 h0'
  have hpairs : List.Forall₂ (fun r r' => SameBut n r r' ∧ r'.expression = r.expression)
      rs.toList rs'.toList :=
    forall₂_of_partners hbase hrs hrs' fun b b' r r' hb hr hr' =>
      ⟨sameBut_of_annotates hb hr hr', expression_of_annotates hb hr hr'⟩
  have he (name : Text) :
      (rs'.get? name).map Record.expression = (rs.get? name).map Record.expression :=
    (get?_map_congr (hpairs.imp fun _ _ h => ⟨h.1.name.symm, h.2.symm⟩) name).symm
  have hv (name : Text) (hne : name ≠ n) :
      (rs'.get? name).map Record.value = (rs.get? name).map Record.value := by
    have hrel := get?_rel (fun _ _ h => h.1.name.symm) hpairs name
    generalize hx : rs.get? name = x, rs'.get? name = y at hrel ⊢
    cases hrel with
    | none => rfl
    | some h => exact congrArg some (h.1.value (name_of_get? hx ▸ hne))
  have hagrees : List.Forall₂ (fun r r' => r ∈ rs.toList → AgreesBut n rs r r')
      rs.toList rs'.toList := by
    refine forall₂_of_partners hbase hrs hrs' fun b b' r r' hb hr hr' hmem => ?_
    refine agreesBut_of_annotates hb hr hr' fun huses => ?_
    rw [hr'.replaced, hr.replaced]
    exact substitute?_eq_of_not_uses hmem (sameBut_of_annotates hb hr hr').name
      (expression_of_annotates hb hr hr') he hv huses
  exact ((List.forall₂_and_left _ _).2 ⟨fun _ h => h, hagrees⟩).imp fun _ _ h => h.2 h.1

/-- A notebook in which `y` uses `x`, `c` and `x` use each other, and `z` uses `y`. -/
def usingCells : List Cell :=
  [.ofText .code "x = 1 + c\nc = x".toList, .ofText .code "y = 2*x\nz = y".toList]

/-- The variables of the notebook, with the value of `x`. -/
def usingSnapshot (value : Text) : Snapshot :=
  [("x".toList, .object [("value".toList, .str value), ("type".toList, .str "int".toList)]),
    ("c".toList, .str "3".toList), ("y".toList, .str "8".toList), ("z".toList, .str "8".toList)]

theorem agreesBut_of_build_using : ∃ rs rs',
    build {} (usingSnapshot "4".toList) usingCells = .ok rs ∧
    build {} (usingSnapshot "[[5]]".toList) usingCells = .ok rs' ∧
    List.Forall₂ (AgreesBut "x".toList rs) rs.toList rs'.toList := by
  have hentry : List.Forall₂ (SaysSameBut "x".toList) (usingSnapshot "4".toList)
      (usingSnapshot "[[5]]".toList) := by
    refine .cons ⟨rfl, _, _, _, .object _ _ rfl, .object _ _ rfl, fun h => absurd rfl h⟩ ?_
    refine .cons ⟨rfl, _, _, _, .text _, .text _, fun _ => rfl⟩ ?_
    refine .cons ⟨rfl, _, _, _, .text _, .text _, fun _ => rfl⟩ ?_
    exact .cons ⟨rfl, _, _, _, .text _, .text _, fun _ => rfl⟩ .nil
  have hbuilt : (build {} (usingSnapshot "4".toList) usingCells).toOption.isSome = true := by
    decide +kernel
  have hbuilt' : (build {} (usingSnapshot "[[5]]".toList) usingCells).toOption.isSome = true := by
    decide +kernel
  obtain ⟨rs, hb⟩ := exists_eq_ok hbuilt
  obtain ⟨rs', hb'⟩ := exists_eq_ok hbuilt'
  exact ⟨rs, rs', hb, hb', agreesBut_of_build hentry hb hb'⟩

end VariableReport.Records
