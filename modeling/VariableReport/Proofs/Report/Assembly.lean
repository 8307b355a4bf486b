import VariableReport.Report.Written
import VariableReport.Proofs.Records.Build
import VariableReport.Proofs.Text.Insertion
import VariableReport.Proofs.Text.Order
import VariableReport.Standard
import Mathlib.Data.List.Perm.Basic
import Mathlib.Data.List.Nodup

/-!
# Reports are complete

A report shows every record exactly once (`make_arranged`). The records are divided into one
group for each cell, which holds the records whose last assignment lies in the cell, and
the rest, which holds those that no cell assigns; the groups are in the strict order of lines and
then of names. The text is then read off the cells and their groups. A group that is not
empty belongs to a code cell, so that no record is lost where a cell shows none.
-/

namespace VariableReport.Report
open Notebook Outcome

/-- Every cell has a text for its source. -/
def Sourced (cells : List Cell) : Prop := ∀ c ∈ cells, ∃ t, c.source = .str t

/-- The assignment that wins for the name of a record lies in the cell of a number. -/
def AssignedIn (ds : List Definition) (r : Record) (index : Nat) : Prop :=
  ∃ d, d.name = r.name ∧ Wins ds d ∧ d.cellIndex = index

/-- Nothing assigns the name of a record. -/
def Unassigned (ds : List Definition) (r : Record) : Prop := ∀ d ∈ ds, d.name ≠ r.name

/-- The order of a cell: by line, and on one line by name. -/
def Precedes (a b : Record) : Prop :=
  lineOf a < lineOf b ∨ (lineOf a = lineOf b ∧ Text.before a.name b.name = true)

/-- The records of a collection in one group for each cell and the rest. -/
structure Arranged (cells : List Cell) (ds : List Definition) (rs : Records)
    (groups : List (List Record)) (rest : List Record) : Prop where
  length : groups.length = cells.length
  mem_group : ∀ (i : Nat) g, groups[i]? = some g → ∀ r, r ∈ g ↔ r ∈ rs.toList ∧ AssignedIn ds r i
  group_order : ∀ g ∈ groups, g.Pairwise Precedes
  group_code : ∀ (i : Nat) g, groups[i]? = some g → g ≠ [] →
    ∃ c : Cell, cells[i]? = some c ∧ c.kind = .code
  mem_rest : ∀ r, r ∈ rest ↔ r ∈ rs.toList ∧ Unassigned ds r
  rest_order : rest.Pairwise fun a b => Text.before a.name b.name = true
  once : (groups.flatten ++ rest).Perm rs.toList
  line : ∀ r ∈ rs.toList, ∀ d, d.name = r.name → Wins ds d → lineOf r = d.line

/-- What a cell shows, given its records. -/
def cellPart [Host] (s : Settings) (c : Cell) (shown : List Record) : Text :=
  match c.kind, c.source with
  | .markdown, .str t => if t.all Text.isBlank then [] else t ++ "\n\n".toList
  | .markdown, _ => []
  | .code, _ => (shown.map (recordText s)).flatten
  | .raw, _ => []

/-- The text of a report, given the groups of its cells and the rest. -/
def arrangedText [Host] (s : Settings) (cells : List Cell) (groups : List (List Record))
    (rest : List Record) : Text :=
  (if s.title = [] then [] else "# ".toList ++ s.title ++ "\n\n".toList) ++
    (List.zipWith (cellPart s) cells groups).flatten ++
    if s.includeUnplaced = true ∧ rest ≠ [] then
      "## Other variables\n\n".toList ++ (rest.map (recordText s)).flatten
    else []

variable {s : Settings} {snapshot : Snapshot} {cells : List Cell} {rs : Records}
  {ds : List Definition} {r a b c : Record}

theorem inLineOrder_iff : inLineOrder a b = true ↔
    lineOf a < lineOf b ∨ (lineOf a = lineOf b ∧ (a.name = b.name ∨
      Text.before a.name b.name = true)) := by
  simp [inLineOrder, Text.not_before_iff]

theorem inLineOrder_trans (h : inLineOrder a b = true) (k : inLineOrder b c = true) :
    inLineOrder a c = true := by
  rw [inLineOrder_iff] at h k ⊢
  rcases h with h | ⟨h, hn⟩
  · exact .inl (by omega)
  · rcases k with k | ⟨k, kn⟩
    · exact .inl (by omega)
    · refine .inr ⟨by omega, ?_⟩
      rcases hn with hn | hn
      · rwa [hn]
      · rcases kn with kn | kn
        · exact .inr (kn ▸ hn)
        · exact .inr (Text.before_trans hn kn)

theorem inLineOrder_total (a b : Record) : (inLineOrder a b || inLineOrder b a) = true := by
  rw [Bool.or_eq_true, inLineOrder_iff, inLineOrder_iff]
  by_cases hn : a.name = b.name
  · rw [hn]
    simp only [true_or, and_true]
    omega
  · rcases Text.before_or_before hn with h | h
    · simp only [h, or_true, and_true]
      omega
    · simp only [h, or_true, and_true]
      omega

theorem inNameOrder_trans (h : inNameOrder a b = true) (k : inNameOrder b c = true) :
    inNameOrder a c = true := by
  simp only [inNameOrder, Bool.not_eq_true', Text.not_before_iff] at h k ⊢
  rcases h with h | h
  · rwa [h]
  · rcases k with k | k
    · exact .inr (k ▸ h)
    · exact .inr (Text.before_trans h k)

theorem inNameOrder_total (a b : Record) : (inNameOrder a b || inNameOrder b a) = true := by
  simp only [inNameOrder, Bool.or_eq_true, Bool.not_eq_true', Text.not_before_iff]
  by_cases hn : a.name = b.name
  · exact .inl (.inl hn)
  · exact (Text.before_or_before hn).imp .inr .inr

theorem mem_definedIn {index : Nat} :
    r ∈ definedIn rs index ↔ r ∈ rs.toList ∧ r.cellIndex = some (index : Int) := by
  simp [definedIn]

theorem mem_undefined : r ∈ undefined rs ↔ r ∈ rs.toList ∧ r.cellIndex = none := by
  simp [undefined]

theorem nodup_toList (rs : Records) : rs.toList.Nodup := rs.distinct.of_map _

/-- Records of a collection that are sorted by name are in strict order. -/
theorem names_ne_of_perm {p : Record → Bool} {l : List Record}
    (h : l.Perm (rs.toList.filter p)) : l.Pairwise fun a b => a.name ≠ b.name := by
  have hn : (l.map Record.name).Nodup :=
    (h.map Record.name).nodup_iff.2 (rs.distinct.sublist (List.filter_sublist.map _))
  exact List.pairwise_map.1 hn

theorem pairwise_definedIn (rs : Records) (index : Nat) :
    (definedIn rs index).Pairwise Precedes := by
  have hsort : (definedIn rs index).Pairwise fun a b => inLineOrder a b = true :=
    @List.pairwise_mergeSort _ inLineOrder (fun _ _ _ => inLineOrder_trans) inLineOrder_total _
  have hne := names_ne_of_perm (List.mergeSort_perm
    (rs.toList.filter fun r => r.cellIndex = some (index : Int)) inLineOrder)
  refine hsort.imp₂ (fun a b h hn => ?_) hne
  rcases inLineOrder_iff.1 h with h | ⟨h, he | h'⟩
  · exact .inl h
  · exact absurd he hn
  · exact .inr ⟨h, h'⟩

theorem pairwise_undefined (rs : Records) :
    (undefined rs).Pairwise fun a b => Text.before a.name b.name = true := by
  have hsort : (undefined rs).Pairwise fun a b => inNameOrder a b = true :=
    @List.pairwise_mergeSort _ inNameOrder (fun _ _ _ => inNameOrder_trans) inNameOrder_total _
  have hne := names_ne_of_perm (List.mergeSort_perm
    (rs.toList.filter fun r => r.cellIndex.isNone) inNameOrder)
  refine hsort.imp₂ (fun a b h hn => ?_) hne
  simp only [inNameOrder, Bool.not_eq_true', Text.not_before_iff] at h
  exact h.resolve_left hn

/-- The cell of a record is the one in which its winning assignment lies. -/
theorem cellIndex_eq_some_iff (h : Records.PlacedBy ds r) {index : Nat} :
    r.cellIndex = some (index : Int) ↔ AssignedIn ds r index := by
  unfold Records.PlacedBy at h
  unfold AssignedIn
  split at h
  next d hd =>
    obtain ⟨hname, hwins⟩ := lastDefinition?_eq_some_iff.1 hd
    rw [h.1]
    constructor
    · exact fun hi => ⟨d, hname, hwins, Int.ofNat.inj (Option.some.inj hi)⟩
    · rintro ⟨e, hen, hew, rfl⟩
      have := lastDefinition?_eq_some_iff.2 ⟨hen, hew⟩
      rw [hd] at this
      rw [Option.some.inj this]
  next hn =>
    refine iff_of_false (by rw [h]; exact Option.some_ne_none _ |>.symm) ?_
    rintro ⟨e, hen, hew, -⟩
    exact lastDefinition?_eq_none_iff.1 hn e hew.mem hen

theorem cellIndex_eq_none_iff (h : Records.PlacedBy ds r) :
    r.cellIndex = none ↔ Unassigned ds r := by
  unfold Records.PlacedBy at h
  unfold Unassigned
  rw [← lastDefinition?_eq_none_iff]
  split at h
  next d hd =>
    rw [h.1, hd]
    simp
  next hn => exact iff_of_true h hn

/-- What stands in the place of a cell that has a text for its source. -/
theorem placeText_eq [Host] {i : Nat} {c : Cell} (hc : ∃ t, c.source = .str t) :
    placeText s rs i c = .ok (cellPart s c (definedIn rs i)) := by
  obtain ⟨kind, source⟩ := c
  obtain ⟨t, rfl⟩ := hc
  cases kind with
  | code => rfl
  | raw => rfl
  | markdown =>
    have hblank : (Text.trim t).isEmpty = t.all Text.isBlank := by
      rw [Bool.eq_iff_iff, List.isEmpty_iff, Text.trim_eq_nil_iff, List.all_eq_true]
    change Except.ok (proseText t) = _
    unfold proseText
    rw [hblank]
    rfl

theorem cellsText_eq [Host] (hs : Sourced cells) (i : Nat) :
    cellsText s rs i cells = .ok (List.zipWith (cellPart s) cells
      ((List.range' i cells.length).map (definedIn rs))).flatten := by
  induction cells generalizing i with
  | nil => rfl
  | cons c cells ih =>
    have hplace : placeText s rs i c = .ok (cellPart s c (definedIn rs i)) :=
      placeText_eq (hs c (by simp))
    have hrest := ih (fun x hx => hs x (by simp [hx])) (i + 1)
    rw [cellsText, hplace, hrest, List.length_cons, List.range'_succ, List.map_cons,
      List.zipWith_cons_cons, List.flatten_cons]
    rfl

theorem text_eq [Host] (hs : Sourced cells) :
    text s rs cells = .ok (arrangedText s cells ((List.range cells.length).map (definedIn rs))
      (undefined rs)) := by
  unfold text arrangedText titleText undefinedText
  rw [cellsText_eq hs 0, ← List.range_eq_range']
  have hrest : (s.includeUnplaced && !(undefined rs).isEmpty) = true ↔
      s.includeUnplaced = true ∧ undefined rs ≠ [] := by simp
  simp only [hrest, List.isEmpty_iff]
  rfl

theorem disjoint_definedIn {i j : Nat} (h : i ≠ j) :
    (definedIn rs i).Disjoint (definedIn rs j) := by
  intro r hi hj
  have := (mem_definedIn.1 hi).2.symm.trans (mem_definedIn.1 hj).2
  exact h (Int.ofNat.inj (Option.some.inj this))

theorem nodup_definedIn (rs : Records) (i : Nat) : (definedIn rs i).Nodup :=
  (List.mergeSort_perm _ _).nodup_iff.2 ((nodup_toList rs).filter _)

theorem nodup_undefined (rs : Records) : (undefined rs).Nodup :=
  (List.mergeSort_perm _ _).nodup_iff.2 ((nodup_toList rs).filter _)

/-- Every record is in one group or in the rest, as long as cells are numbered below `n`. -/
theorem perm_groups {n : Nat} (h : ∀ r ∈ rs.toList, r.cellIndex = none ∨
    ∃ i, i < n ∧ r.cellIndex = some ((i : Nat) : Int)) :
    (((List.range n).map (definedIn rs)).flatten ++ undefined rs).Perm rs.toList := by
  have hgroups : ((List.range n).map (definedIn rs)).flatten.Nodup := by
    rw [List.nodup_flatten]
    constructor
    · intro l hl
      obtain ⟨i, -, rfl⟩ := List.mem_map.1 hl
      exact nodup_definedIn rs i
    · rw [List.pairwise_map]
      exact List.pairwise_lt_range.imp fun hij => disjoint_definedIn (Nat.ne_of_lt hij)
  refine (List.perm_ext_iff_of_nodup ?_ (nodup_toList rs)).2 fun r => ?_
  · refine hgroups.append (nodup_undefined rs) ?_
    intro r hr hn
    obtain ⟨l, hl, hr⟩ := List.mem_flatten.1 hr
    obtain ⟨i, -, rfl⟩ := List.mem_map.1 hl
    have := (mem_definedIn.1 hr).2
    rw [(mem_undefined.1 hn).2] at this
    contradiction
  · constructor
    · intro hr
      rcases List.mem_append.1 hr with hr | hr
      · obtain ⟨l, hl, hr⟩ := List.mem_flatten.1 hr
        obtain ⟨i, -, rfl⟩ := List.mem_map.1 hl
        exact (mem_definedIn.1 hr).1
      · exact (mem_undefined.1 hr).1
    · intro hr
      rcases h r hr with hn | ⟨i, hi, hc⟩
      · exact List.mem_append_right _ (mem_undefined.2 ⟨hr, hn⟩)
      · refine List.mem_append_left _ (List.mem_flatten.2 ⟨definedIn rs i, ?_, ?_⟩)
        · exact List.mem_map.2 ⟨i, List.mem_range.2 hi, rfl⟩
        · exact mem_definedIn.2 ⟨hr, hc⟩

/-- The groups and the rest of a built collection are arranged. -/
theorem arranged_of_placedBy (hd : definitions cells = .ok ds)
    (hp : ∀ r ∈ rs.toList, Records.PlacedBy ds r) :
    Arranged cells ds rs ((List.range cells.length).map (definedIn rs)) (undefined rs) := by
  have hgroup {i : Nat} {g : List Record}
      (h : ((List.range cells.length).map (definedIn rs))[i]? = some g) : g = definedIn rs i := by
    rw [List.getElem?_map] at h
    obtain ⟨j, hj, rfl⟩ := Option.map_eq_some_iff.1 h
    obtain ⟨hlt, rfl⟩ := List.getElem?_eq_some_iff.1 hj
    simp
  have hmem {i : Nat} (r : Record) : r ∈ definedIn rs i ↔ r ∈ rs.toList ∧ AssignedIn ds r i := by
    rw [mem_definedIn]
    exact and_congr_right fun hr => cellIndex_eq_some_iff (hp r hr)
  refine ⟨by simp, fun i g h r => hgroup h ▸ hmem r, ?_, ?_, fun r => ?_, pairwise_undefined rs,
    perm_groups fun r hr => ?_, fun r hr d hname hwins => ?_⟩
  · intro g hg
    obtain ⟨i, -, rfl⟩ := List.mem_map.1 hg
    exact pairwise_definedIn rs i
  · intro i g h hne
    obtain ⟨r, hr⟩ := List.exists_mem_of_ne_nil g hne
    obtain ⟨d, -, hwins, rfl⟩ := ((hmem r).1 (hgroup h ▸ hr)).2
    exact code_of_mem_definitions hd hwins.mem
  · rw [mem_undefined]
    exact and_congr_right fun hr => cellIndex_eq_none_iff (hp r hr)
  · have hplaced := hp r hr
    unfold Records.PlacedBy at hplaced
    split at hplaced
    next d hlast =>
      obtain ⟨c, hc, -⟩ := code_of_mem_definitions hd (lastDefinition?_eq_some_iff.1 hlast).2.mem
      exact .inr ⟨d.cellIndex, (List.getElem?_eq_some_iff.1 hc).1, hplaced.1⟩
    next => exact .inl hplaced
  · have hplaced := hp r hr
    unfold Records.PlacedBy at hplaced
    rw [lastDefinition?_eq_some_iff.2 ⟨hname, hwins⟩] at hplaced
    simp [lineOf, hplaced.2]

/-- The report of built records shows each of them exactly once, in the code cell in which its
winning assignment lies, or among the rest when nothing assigns it. -/
theorem make_arranged [Host] [Matrix.Arrays] (hs : Sourced cells)
    (hb : Records.build s snapshot cells = .ok rs) :
    ∃ ds groups rest, definitions cells = .ok ds ∧ Arranged cells ds rs groups rest ∧
      make s snapshot cells = .ok (rs, arrangedText s cells groups rest) := by
  obtain ⟨ds, hd, hp⟩ := Records.placedBy_of_build hb
  refine ⟨ds, _, _, hd, arranged_of_placedBy hd hp, ?_⟩
  unfold make
  rw [hb]
  change (do
    let t ← text s rs cells
    Except.ok (rs, t)) = _
  rw [text_eq hs]
  rfl

theorem eq_ok_of_map {x : Except Failure (Records × Text)} {t u : Text} (h : x = .ok (rs, t))
    (k : x.toOption.map (·.2) = some u) : x = .ok (rs, u) := by
  subst h
  rw [← Option.some.inj k]

/-- A notebook that assigns `a` and `b` twice; its raw cell assigns nothing. -/
def reassigningCells : List Cell :=
  [.ofText .markdown "Text".toList, .ofText .code "b = 1; a = 2\nb = 3".toList,
    .ofText .raw "a = 9".toList, .ofText .code "a = 4".toList]

/-- The variables of the notebook and one that it does not assign. -/
def reassigningSnapshot : Snapshot :=
  [("a".toList, .str "4".toList), ("b".toList, .str "3".toList), ("u".toList, .str "7".toList)]

theorem make_arranged_reassigning : ∃ rs ds groups rest,
    Records.build {} reassigningSnapshot reassigningCells = .ok rs ∧
    definitions reassigningCells = .ok ds ∧ Arranged reassigningCells ds rs groups rest ∧
    make {} reassigningSnapshot reassigningCells = .ok (rs,
      "Text\n\n$ b = 3 $\n\n$ a = 4 $\n\n## Other variables\n\n$ u = 7 $\n\n".toList) := by
  have hs : Sourced reassigningCells := by
    intro c hc
    simp only [reassigningCells, List.mem_cons, List.not_mem_nil, or_false] at hc
    rcases hc with rfl | rfl | rfl | rfl <;> exact ⟨_, rfl⟩
  have hbuilt : (Records.build {} reassigningSnapshot reassigningCells).toOption.isSome = true := by
    decide +kernel
  have htext : (make {} reassigningSnapshot reassigningCells).toOption.map (·.2) =
      some "Text\n\n$ b = 3 $\n\n$ a = 4 $\n\n## Other variables\n\n$ u = 7 $\n\n".toList := by
    decide +kernel
  obtain ⟨rs, hb⟩ := exists_eq_ok hbuilt
  obtain ⟨ds, groups, rest, hd, harranged, hmake⟩ := make_arranged hs hb
  exact ⟨rs, ds, groups, rest, hb, hd, harranged, eq_ok_of_map hmake htext⟩

end VariableReport.Report
