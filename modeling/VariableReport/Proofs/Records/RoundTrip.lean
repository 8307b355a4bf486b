import VariableReport.Proofs.Json.Rendered
import VariableReport.Proofs.Records.Build
import VariableReport.Standard

/-!
# Written records are a snapshot

The text of a collection is read back as the object that was written (`read_text`), and as a
snapshot its entries say the names, the values and the types of the records. Everything else in the
entries is passed over, since the steps that find it look at the cells again. So the records of a
run, read as a snapshot of the same cells, are built into themselves (`build_read_text`).
-/

namespace VariableReport
open Outcome Json

namespace Record

variable {r : Record} {key : Text} {note : Option Json} {m : Text × Json}

theorem keys_member (key : Text) (note : Option Json) :
    ((member key note).map Prod.fst).Sublist [key] := by
  cases note <;> simp [member]

/-- No two members of a written record have one name. -/
theorem nodup_keys_members (r : Record) : (r.members.map Prod.fst).Nodup := by
  have hkeys : ["value".toList, "type".toList, "expression".toList, "replaced".toList,
      "latexValue".toList, "tableItems".toList].Nodup := by decide
  refine hkeys.sublist ?_
  unfold members
  simp only [List.map_append]
  exact ((((List.Sublist.refl _).append (keys_member _ _)).append (keys_member _ _)).append
    (keys_member _ _)).append (keys_member _ _)

theorem mem_member_iff : m ∈ member key note ↔ m.1 = key ∧ note = some m.2 := by
  obtain ⟨k, j⟩ := m
  cases note <;> simp [member, Prod.ext_iff, eq_comm]

theorem textual_label (d : Nat) (label? : Option Text) : Textual d (label label?) := by
  cases label? with
  | none => exact .null d
  | some t => exact .str d t

theorem textual_toJson (r : Record) : Textual 2 r.toJson := by
  refine .object r.nodup_keys_members fun m hm => ?_
  have hstr {note : Option Text} (h : note.map Json.str = some m.2) : Textual 1 m.2 := by
    obtain ⟨t, -, ht⟩ := Option.map_eq_some_iff.1 h
    exact ht ▸ .str 1 t
  simp only [members, List.mem_append, mem_member_iff, List.mem_cons, List.not_mem_nil,
    or_false] at hm
  rcases hm with ((((rfl | rfl) | ⟨-, h⟩) | ⟨-, h⟩) | ⟨-, h⟩) | ⟨-, h⟩
  · exact .str 1 _
  · exact .str 1 _
  · exact hstr h
  · exact hstr h
  · exact hstr h
  · obtain ⟨labels, -, hlabels⟩ := Option.map_eq_some_iff.1 h
    rw [← hlabels]
    refine .array fun j hj => ?_
    obtain ⟨label?, -, rfl⟩ := List.mem_map.1 hj
    exact textual_label 0 label?

end Record

namespace Records

variable {s : Settings} {snapshot : Snapshot} {cells : List Cell} {rs base : Records} {r b : Record}
  {ds : List Notebook.Definition} {found : List (Text × List Text)}

/-- The entries of the records as a snapshot. -/
def entries (rs : Records) : Snapshot := rs.toList.map fun r => (r.name, r.toJson)

theorem textual_toJson (rs : Records) : Textual 3 rs.toJson := by
  refine .object ?_ fun m hm => ?_
  · simpa [Function.comp_def] using rs.distinct
  · obtain ⟨r, -, rfl⟩ := List.mem_map.1 hm
    exact r.textual_toJson

/-- The text of a collection is read as what was written. -/
theorem read_text [Host] (rs : Records) (site : Site) :
    Json.read rs.text site = .ok (.object rs.entries) :=
  read_render rs.textual_toJson (Nat.le_trans (by decide) (Host.jsonDepth_ge site))

/-- An entry that was written says the name, the value and the type of its record. -/
theorem entryRecord_toJson (r : Record) : entryRecord r.name r.toJson =
    .ok { name := r.name, value := r.value, type := r.type } := rfl

theorem name_ne_nil_of_ofSnapshot (h : ofSnapshot snapshot = .ok base) (hb : b ∈ base.toList) :
    b.name ≠ [] := by
  obtain ⟨records, hrecords, rfl⟩ := ofSnapshot_eq_ok_iff.1 h
  obtain ⟨e, he, hrecord⟩ := exists_of_mem_forall₂ hrecords.flip (mem_ofList hb)
  obtain ⟨value, type, rfl⟩ := entryRecord_eq_ok hrecord
  simpa using (List.mem_filter.1 he).2

/-- The entries of annotated records give the bare records back. -/
theorem ofSnapshot_entries [Host] [Matrix.Arrays] (h0 : ofSnapshot snapshot = .ok base)
    (h : List.Forall₂ (Annotates ds found rs) base.toList rs.toList) :
    ofSnapshot rs.entries = .ok base := by
  have hnames : rs.entries.filter (fun e => !e.1.isEmpty) = rs.entries := by
    refine List.filter_eq_self.2 fun e he => ?_
    obtain ⟨r, hr, rfl⟩ := List.mem_map.1 he
    obtain ⟨b, hb, hbr⟩ := exists_of_mem_forall₂ h.flip hr
    simpa [hbr.name] using name_ne_nil_of_ofSnapshot h0 hb
  refine ofSnapshot_eq_ok_iff.2 ⟨base.toList, ?_, eq_of_toList (toList_ofList base.distinct)⟩
  rw [hnames, entries, List.forall₂_map_left_iff]
  have hbare := (List.forall₂_and_left _ _).2 ⟨fun b hb => isBare_ofSnapshot h0 hb, h⟩
  refine (hbare.imp fun b r ⟨hb, hr⟩ => ?_).flip
  change entryRecord r.name r.toJson = .ok b
  rw [entryRecord_toJson, hr.name, hr.value, hr.type]
  exact congrArg Except.ok hb.symm

/-- Records that were written and are read again as a snapshot are built into themselves. -/
theorem build_read_text [Host] [Matrix.Arrays] (hb : build s snapshot cells = .ok rs)
    (site : Site) :
    ∃ members, Json.read rs.text site = .ok (.object members) ∧ build s members cells = .ok rs := by
  obtain ⟨base, ds, found, h0, hds, hfound, hrs⟩ := build_eq_ok_iff.1 hb
  refine ⟨rs.entries, rs.read_text site, ?_⟩
  exact build_eq_ok_iff.2 ⟨base, ds, found, ofSnapshot_entries h0 hrs, hds, hfound, hrs⟩

/-- A snapshot with an entry without a name, a number for a value and an entry without a type. -/
def unevenSnapshot : Snapshot :=
  [([], .str "9".toList), ("k".toList, .int 2),
    ("m".toList, .object [("value".toList, .str "[[1, 2]]".toList), ("unit".toList, .null)]),
    ("q".toList, .object [("value".toList, .str "\"\t\u00e4".toList),
      ("type".toList, .str "str".toList)])]

/-- A notebook that labels the rows of `m` and uses `k` and `m` in each other. -/
def labelledCells : List Cell :=
  [.ofText .code "# table: [\"a\"]\nm = k*[1]\nk = q + m".toList]

theorem build_read_text_uneven : ∃ rs members,
    build {} unevenSnapshot labelledCells = .ok rs ∧
    Json.read rs.text .snapshot = .ok (.object members) ∧
    build {} members labelledCells = .ok rs := by
  have hbuilt : (build {} unevenSnapshot labelledCells).toOption.isSome = true := by
    decide +kernel
  obtain ⟨rs, hb⟩ := exists_eq_ok hbuilt
  obtain ⟨members, hread, hmembers⟩ := build_read_text hb .snapshot
  exact ⟨rs, members, hb, hread, hmembers⟩

end Records

end VariableReport
