import VariableReport.Proofs.Report.Assembly

/-!
# Reports do not depend on the order of variables

A snapshot in another order is built into the same records in another order, or not built at all
(`exists_build_of_perm`): a record is annotated by what the cells say of its name and by what the
other records show for the names in its expression, and neither knows of an order. The records of
a cell are brought into a strict order of their own, so the report is the same text (`report_of_perm`).
-/

namespace VariableReport

namespace Records
open Notebook Outcome

variable {s : Settings} {snapshot snapshot' : Snapshot} {cells : List Cell} {rs rs' : Records}
  {ds : List Definition} {found : List (Text × List Text)} {b r : Record}

theorem Annotates.congr (hr : Annotates ds found rs b r)
    (h : ∀ name, rs.get? name = rs'.get? name) : Annotates ds found rs' b r :=
  { hr with
    replaced := hr.replaced.trans
      (substitute?_of_shown (fun name => congrArg (Option.map Record.shown) (h name)) rfl) }

/-- What is built from a snapshot is built, in another order, from the snapshot in another
order. -/
theorem exists_build_of_perm (hp : snapshot.Perm snapshot')
    (hd : (snapshot.map Prod.fst).Nodup) (h : build s snapshot cells = .ok rs) :
    ∃ rs', build s snapshot' cells = .ok rs' ∧ rs'.toList.Perm rs.toList := by
  obtain ⟨base, ds, found, h0, hds, hfound, hrs⟩ := build_eq_ok_iff.1 h
  obtain ⟨base', h0', hbase⟩ := exists_ofSnapshot_of_perm hp hd h0
  obtain ⟨records, hrecords, hperm⟩ := List.perm_comp_forall₂ hbase hrs
  have hdistinct : (records.map Record.name).Nodup := (hperm.map _).nodup_iff.2 rs.distinct
  refine ⟨⟨records, hdistinct⟩, ?_, hperm⟩
  refine build_eq_ok_iff.2 ⟨base', ds, found, h0', hds, hfound, ?_⟩
  exact hrecords.imp fun b r hr => hr.congr (get?_of_perm hperm.symm)

end Records

namespace Report
open Records Outcome

variable {s : Settings} {snapshot snapshot' : Snapshot} {cells : List Cell} {rs rs' : Records}
  {a b : Record}

theorem Precedes.asymm (h : Precedes a b) : ¬Precedes b a := by
  rintro (k | ⟨k, kn⟩)
  · rcases h with h | ⟨h, -⟩ <;> omega
  · rcases h with h | ⟨-, hn⟩
    · omega
    · exact absurd (Text.before_trans hn kn) (by simp [Text.before_irrefl])

theorem definedIn_of_perm (h : rs.toList.Perm rs'.toList) (index : Nat) :
    definedIn rs index = definedIn rs' index := by
  have hperm : (definedIn rs index).Perm (definedIn rs' index) :=
    (List.mergeSort_perm _ _).trans ((h.filter _).trans (List.mergeSort_perm _ _).symm)
  exact hperm.eq_of_pairwise (fun a b _ _ hab hba => absurd hba hab.asymm)
    (pairwise_definedIn rs index) (pairwise_definedIn rs' index)

theorem undefined_of_perm (h : rs.toList.Perm rs'.toList) : undefined rs = undefined rs' := by
  have hperm : (undefined rs).Perm (undefined rs') :=
    (List.mergeSort_perm _ _).trans ((h.filter _).trans (List.mergeSort_perm _ _).symm)
  refine hperm.eq_of_pairwise (fun a b _ _ hab hba => ?_)
    (pairwise_undefined rs) (pairwise_undefined rs')
  exact absurd (Text.before_trans hab hba) (by simp [Text.before_irrefl])

theorem cellsText_of_perm (h : rs.toList.Perm rs'.toList) (index : Nat) :
    cellsText s rs index cells = cellsText s rs' index cells := by
  induction cells generalizing index with
  | nil => rfl
  | cons c cells ih =>
    unfold cellsText placeText
    rw [definedIn_of_perm h, ih]

theorem text_of_perm (h : rs.toList.Perm rs'.toList) : text s rs cells = text s rs' cells := by
  unfold text undefinedText
  rw [cellsText_of_perm h, undefined_of_perm h]

/-- Snapshots with the same entries in different orders are built alike: either both or none, with
the same record for every name and with the same report. -/
theorem report_of_perm (hp : snapshot.Perm snapshot') (hd : (snapshot.map Prod.fst).Nodup) :
    ((∃ rs, build s snapshot cells = .ok rs) ↔ ∃ rs, build s snapshot' cells = .ok rs) ∧
      ∀ rs rs', build s snapshot cells = .ok rs → build s snapshot' cells = .ok rs' →
        (∀ name, rs.get? name = rs'.get? name) ∧ text s rs cells = text s rs' cells := by
  have hd' : (snapshot'.map Prod.fst).Nodup := (hp.map _).nodup_iff.1 hd
  refine ⟨⟨?_, ?_⟩, fun rs rs' hb hb' => ?_⟩
  · rintro ⟨rs, hb⟩
    obtain ⟨rs', hb', -⟩ := exists_build_of_perm hp hd hb
    exact ⟨rs', hb'⟩
  · rintro ⟨rs', hb'⟩
    obtain ⟨rs, hb, -⟩ := exists_build_of_perm hp.symm hd' hb'
    exact ⟨rs, hb⟩
  · obtain ⟨built, hbuilt, hperm⟩ := exists_build_of_perm hp hd hb
    obtain rfl := Except.ok.inj (hbuilt.symm.trans hb')
    exact ⟨get?_of_perm hperm.symm, text_of_perm hperm.symm⟩

theorem report_of_perm_reversed : ∃ rs rs',
    build {} reassigningSnapshot reassigningCells = .ok rs ∧
    build {} reassigningSnapshot.reverse reassigningCells = .ok rs' ∧
    (∀ name, rs.get? name = rs'.get? name) ∧
    text {} rs reassigningCells = text {} rs' reassigningCells := by
  have hp : reassigningSnapshot.Perm reassigningSnapshot.reverse := (List.reverse_perm _).symm
  have hd : (reassigningSnapshot.map Prod.fst).Nodup := by decide
  have hbuilt : (build {} reassigningSnapshot reassigningCells).toOption.isSome = true := by
    decide +kernel
  obtain ⟨hiff, hsame⟩ := @report_of_perm {} _ _ reassigningCells hp hd
  obtain ⟨rs, hb⟩ := exists_eq_ok hbuilt
  obtain ⟨rs', hb'⟩ := hiff.1 ⟨rs, hb⟩
  exact ⟨rs, rs', hb, hb', hsame rs rs' hb hb'⟩

end Report

end VariableReport
