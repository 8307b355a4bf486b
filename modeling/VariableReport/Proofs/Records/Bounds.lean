import VariableReport.Kernel
import VariableReport.Proofs.Listing.Moderate
import VariableReport.Proofs.Records.Build
import VariableReport.Standard

/-!
# What keeps records from being built

The steps over a captured snapshot and cells of text absorb what is wrong with a value or a
comment, up to the bounds of their readers: the records are built exactly when no value overtaxes
the reading of matrices and no comment that of table directives (`exists_build_iff`). Moderate
texts overtax neither, so that records are built of everything but very long numbers and very deep
nestings (`absorbs_iff`).
-/

namespace VariableReport.Records
open Outcome Notebook

variable {s : Settings} {cells : List Cell} {c : Cell} {base rs : Records} {snapshot : Snapshot}
  {entries : List Kernel.Entry} {keyword t comment : Text} {ds : List Definition}

/-- The comments of the statements of a cell. -/
def cellComments (c : Cell) : List Text :=
  match c.kind, c.source with
  | .code, .str t => (Source.statements t).flatMap fun st => st.leading ++ st.trailing
  | _, _ => []

def comments (cells : List Cell) : List Text := cells.flatMap cellComments

theorem exists_cellDefinitions (hc : ∃ t, c.source = .str t) (i : Nat) :
    ∃ ds, cellDefinitions i c = .ok ds := by
  obtain ⟨t, ht⟩ := hc
  unfold cellDefinitions Cell.code Cell.text
  rw [ht]
  cases c.kind <;> exact ⟨_, rfl⟩

theorem exists_definitions (hcells : ∀ c ∈ cells, ∃ t, c.source = .str t) :
    ∃ ds, definitions cells = .ok ds := by
  have key (i : Nat) : ∃ ds, definitionsFrom i cells = .ok ds := by
    induction cells generalizing i with
    | nil => exact ⟨[], rfl⟩
    | cons c cells ih =>
      rw [List.forall_mem_cons] at hcells
      obtain ⟨first, hfirst⟩ := exists_cellDefinitions hcells.1 i
      obtain ⟨rest, hrest⟩ := ih hcells.2 (i + 1)
      rw [definitionsFrom, hfirst]
      refine exists_bind_eq_ok.2 ⟨first, rfl, exists_bind_eq_ok.2 ⟨rest, hrest, _, rfl⟩⟩
  exact key 0

theorem exists_statementTable?_iff [Host] {st : Source.Statement} :
    (∃ e, statementTable? keyword st = .ok e) ↔
      ∀ comment ∈ st.leading ++ st.trailing, ¬Directive.Overtaxes keyword comment := by
  have hlabels : (∃ labels, lastLabels? keyword (st.leading ++ st.trailing) = .ok labels) ↔
      ∀ comment ∈ st.leading ++ st.trailing, ¬Directive.Overtaxes keyword comment := by
    rw [lastLabels?, exists_bind_eq_ok]
    simp only [Except.ok.injEq, exists_eq', and_true]
    rw [exists_mapM_eq_ok]
    exact forall₂_congr fun comment _ => Directive.exists_labels?_iff
  rw [statementTable?, exists_bind_eq_ok, ← hlabels]
  refine exists_congr fun labels => and_iff_left ?_
  cases labels <;> exact ⟨_, rfl⟩

theorem exists_cellTables_iff [Host] (hc : ∃ t, c.source = .str t) :
    (∃ es, cellTables keyword c = .ok es) ↔
      ∀ comment ∈ cellComments c, ¬Directive.Overtaxes keyword comment := by
  obtain ⟨t, ht⟩ := hc
  have hcode : c.code = .ok t := by rw [Cell.code, Cell.text, ht]
  unfold cellTables cellComments
  rw [ht]
  cases c.kind with
  | code =>
    dsimp only
    rw [hcode, exists_bind_eq_ok]
    simp only [Except.ok.injEq, exists_eq_left']
    rw [exists_bind_eq_ok]
    simp only [Except.ok.injEq, exists_eq', and_true]
    rw [exists_mapM_eq_ok, List.forall_mem_flatMap]
    exact forall₂_congr fun st _ => exists_statementTable?_iff
  | markdown => simp
  | raw => simp

theorem exists_tables_iff [Host] (hcells : ∀ c ∈ cells, ∃ t, c.source = .str t) :
    (∃ found, tables keyword cells = .ok found) ↔
      ∀ comment ∈ comments cells, ¬Directive.Overtaxes keyword comment := by
  rw [tables, exists_bind_eq_ok]
  simp only [Except.ok.injEq, exists_eq', and_true]
  rw [exists_mapM_eq_ok, comments, List.forall_mem_flatMap]
  exact forall₂_congr fun c hc => exists_cellTables_iff (hcells c hc)

/-- The record of an entry of which the cells have said nothing yet. -/
def entryOf (e : Kernel.Entry) : Record := { name := e.name, value := e.value, type := e.type }

/-- A snapshot of entries has the records of those that have a name. -/
theorem exists_ofSnapshot (hnames : (entries.map Kernel.Entry.name).Nodup) :
    ∃ base, ofSnapshot (entries.map Kernel.Entry.member) = .ok base ∧
      base.toList = (entries.filter fun e => !e.name.isEmpty).map entryOf := by
  have hrecords : (((entries.filter fun e => !e.name.isEmpty).map entryOf).map
      Record.name).Nodup := by
    rw [List.map_map]
    exact hnames.sublist (List.filter_sublist.map _)
  refine ⟨_, ofSnapshot_eq_ok_iff.2 ⟨_, ?_, rfl⟩, toList_ofList hrecords⟩
  rw [List.filter_map, List.forall₂_map_left_iff, List.forall₂_map_right_iff]
  exact List.forall₂_same.2 fun e _ => rfl

theorem exists_attachMatrices_iff [Host] [Matrix.Arrays] :
    (∃ rs', rs.attachMatrices = .ok rs') ↔ ∀ r ∈ rs.toList, ¬Matrix.Overtaxes r.value := by
  constructor
  · rintro ⟨rs', h⟩ r hr
    obtain ⟨r', -, hr'⟩ := exists_of_mem_forall₂ (attachMatrices_eq_ok_iff.1 h) hr
    obtain ⟨m, hm, -⟩ := classify_eq_ok_iff.1 hr'
    exact Matrix.exists_latex?_iff.1 ⟨m, hm⟩
  · exact fun h => exists_attachMatrices fun r hr => Matrix.exists_latex?_iff.2 (h r hr)

/-- Records are built exactly when no value is too much to read as a matrix and no comment too
much to read as a table directive. -/
theorem exists_build_iff [Host] [Matrix.Arrays] (hnames : (entries.map Kernel.Entry.name).Nodup)
    (hcells : ∀ c ∈ cells, ∃ t, c.source = .str t) :
    (∃ rs, build s (entries.map Kernel.Entry.member) cells = .ok rs) ↔
      (∀ e ∈ entries, e.name ≠ [] → ¬Matrix.Overtaxes e.value) ∧
        ∀ comment ∈ comments cells, ¬Directive.Overtaxes s.tableDirective comment := by
  obtain ⟨base, h0, hbase⟩ := exists_ofSnapshot hnames
  obtain ⟨ds, hds⟩ := exists_definitions hcells
  have hvalues : (∃ rs, (base.attachDefinitions ds).attachMatrices = .ok rs) ↔
      ∀ e ∈ entries, e.name ≠ [] → ¬Matrix.Overtaxes e.value := by
    have hlist : (base.attachDefinitions ds).toList = base.toList.map (defineFrom ds) := rfl
    rw [exists_attachMatrices_iff, hlist, hbase, List.map_map, List.forall_mem_map]
    simp [List.mem_filter, defineFrom_eq, entryOf]
  rw [← hvalues, ← exists_tables_iff hcells]
  constructor
  · rintro ⟨rs, h⟩
    obtain ⟨base', ds', found, h0', hds', hfound, -⟩ := build_eq_ok_iff.1 h
    rw [build_eq h0 hds hfound] at h
    obtain ⟨rs₂, h2, -⟩ := map_eq_ok.1 h
    exact ⟨⟨rs₂, h2⟩, found, hfound⟩
  · rintro ⟨⟨rs₂, h2⟩, found, hfound⟩
    rw [build_eq h0 hds hfound, h2]
    exact ⟨_, rfl⟩

/-- All failures but those at the bounds of the readers are absorbed, and moderate texts are within
these bounds. -/
theorem absorbs_iff [Host] [Matrix.Arrays] (hnames : (entries.map Kernel.Entry.name).Nodup)
    (hcells : ∀ c ∈ cells, ∃ t, c.source = .str t) :
    ((∃ rs, build s (entries.map Kernel.Entry.member) cells = .ok rs) ↔
      (∀ e ∈ entries, e.name ≠ [] → ¬Matrix.Overtaxes e.value) ∧
        ∀ comment ∈ comments cells, ¬Directive.Overtaxes s.tableDirective comment) ∧
    (∀ t, (∃ latex, Matrix.latex? t = .ok latex) ↔ ¬Matrix.Overtaxes t) ∧
    (∀ t, Listing.Moderate .matrix t → ¬Matrix.Overtaxes t) ∧
    ∀ keyword comment,
      (∀ body, Directive.body? keyword comment = some body → Listing.Moderate .directive body) →
        ¬Directive.Overtaxes keyword comment :=
  ⟨exists_build_iff hnames hcells, fun _ => Matrix.exists_latex?_iff,
    fun _ => Matrix.not_overtaxes_of_moderate, fun _ _ => Directive.not_overtaxes_of_moderate⟩

/-- A matrix, a text that is cut off and a table directive are absorbed. -/
theorem absorbs_iff_small : ∃ rs, build {}
    ([⟨"m".toList, "[[1, 2], [3, 4.5]]".toList, "list".toList⟩,
      ⟨"cut".toList, "[[1, 2], [3".toList, "str".toList⟩].map Kernel.Entry.member)
    [.ofText .code "x = 1 # table: [a, 2]".toList, .ofText .markdown "text".toList] = .ok rs := by
  have hcomments : comments [.ofText .code "x = 1 # table: [a, 2]".toList,
      .ofText .markdown "text".toList] = ["# table: [a, 2]".toList] := by decide +kernel
  have hbody : Directive.body? "table".toList "# table: [a, 2]".toList = some "[a, 2]".toList := by
    decide +kernel
  obtain ⟨hbuild, -, hvalue, hcomment⟩ := @absorbs_iff {}
    [.ofText .code "x = 1 # table: [a, 2]".toList, .ofText .markdown "text".toList]
    [⟨"m".toList, "[[1, 2], [3, 4.5]]".toList, "list".toList⟩,
      ⟨"cut".toList, "[[1, 2], [3".toList, "str".toList⟩] _ _ (by decide)
    (by simp [Cell.ofText])
  refine hbuild.2 ⟨?_, ?_⟩
  · simp only [List.forall_mem_cons, List.not_mem_nil, false_imp_iff, implies_true, and_true]
    exact ⟨fun _ => hvalue _ ⟨Text.shortRuns_of_length_le (by decide), by decide⟩,
      fun _ => hvalue _ ⟨Text.shortRuns_of_length_le (by decide), by decide⟩⟩
  · rw [hcomments]
    refine List.forall_mem_singleton.2 (hcomment _ _ fun body h => ?_)
    obtain rfl := Option.some.inj (hbody.symm.trans h)
    exact ⟨Text.shortRuns_of_length_le (by decide), by decide⟩

/-- A value with one digit more than are read is not absorbed. -/
theorem build_ne_ok_of_digits : ¬∃ rs, build {}
    ([⟨"n".toList, List.replicate 4301 '7', "int".toList⟩].map Kernel.Entry.member) [] = .ok rs := by
  rw [exists_build_iff (by decide) (by simp)]
  rintro ⟨hvalues, -⟩
  have hdigits : ∀ d ∈ List.replicate (4300 + 1) '7', Json.isDigit d = true :=
    fun d hd => List.eq_of_mem_replicate hd ▸ rfl
  have hlong : Value.maxDigits < (List.replicate (4300 + 1) '7').length := by
    rw [List.length_replicate]
    decide
  exact hvalues _ List.mem_cons_self (by decide)
    (.list (Listing.overtaxes_of_long .matrix (by decide) hdigits hlong))

end VariableReport.Records
