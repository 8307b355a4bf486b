import VariableReport.Records.Build
import VariableReport.Proofs.Outcome
import Mathlib.Data.List.Perm.Basic

/-!
# Records of snapshots

Every entry that has a name gives one record, which holds a name, a value and a type and nothing
else (`ofSnapshot_eq_ok_iff`, `isBare_ofSnapshot`). Records are put into a collection one after the
other; where their names are distinct the collection lists them as they came (`toList_ofList`), and
records that are related one by one, with the same names, give related collections
(`forall₂_ofList`), in which the records of every name are related (`get?_rel`). The entries of a
snapshot in another order give the same records in another order (`exists_ofSnapshot_of_perm`).
-/

namespace VariableReport
open Outcome

/-- A record of which the cells have said nothing yet. -/
def Record.IsBare (r : Record) : Prop := r = { name := r.name, value := r.value, type := r.type }

namespace Records

variable {rs rs' base : Records} {r r' b : Record} {records records' : List Record}
  {snapshot snapshot' : Snapshot} {S : Record → Record → Prop}

theorem eq_of_toList (h : rs.toList = rs'.toList) : rs = rs' := by
  cases rs
  cases rs'
  simpa using h

theorem mem_insertInto (h : r' ∈ insertInto r records) : r' = r ∨ r' ∈ records := by
  induction records with
  | nil => exact .inl (List.mem_singleton.1 h)
  | cons x records ih =>
    rw [insertInto] at h
    split at h
    · rcases List.mem_cons.1 h with rfl | h
      · exact .inl rfl
      · exact .inr (List.mem_cons_of_mem _ h)
    · rcases List.mem_cons.1 h with rfl | h
      · exact .inr (by simp)
      · exact (ih h).imp_right (List.mem_cons_of_mem _)

theorem mem_ofList (h : r ∈ (ofList records).toList) : r ∈ records := by
  have key (records : List Record) (rs : Records) (h : r ∈ (records.foldl insert rs).toList) :
      r ∈ rs.toList ∨ r ∈ records := by
    induction records generalizing rs with
    | nil => exact .inl h
    | cons x records ih =>
      rcases ih (rs.insert x) h with h | h
      · exact (mem_insertInto h).elim (fun h => .inr (by simp [h])) .inl
      · exact .inr (by simp [h])
  exact (key records empty h).resolve_left (by simp [empty])

theorem insertInto_of_not_mem (h : r.name ∉ records.map Record.name) :
    insertInto r records = records ++ [r] := by
  induction records with
  | nil => rfl
  | cons x records ih =>
    simp only [List.map_cons, List.mem_cons, not_or] at h
    rw [insertInto, if_neg (Ne.symm h.1), ih h.2, List.cons_append]

theorem toList_ofList (h : (records.map Record.name).Nodup) : (ofList records).toList = records := by
  have key (records : List Record) (rs : Records)
      (h : ((rs.toList ++ records).map Record.name).Nodup) :
      (records.foldl insert rs).toList = rs.toList ++ records := by
    induction records generalizing rs with
    | nil => simp
    | cons r records ih =>
      have hr : r.name ∉ rs.toList.map Record.name := by
        rw [List.map_append, List.map_cons] at h
        exact fun hmem => (List.nodup_append.1 h).2.2 _ hmem _ (by simp) rfl
      have hinsert : (rs.insert r).toList = rs.toList ++ [r] := insertInto_of_not_mem hr
      have happend : rs.toList ++ r :: records = (rs.insert r).toList ++ records := by
        rw [hinsert, List.append_assoc, List.singleton_append]
      rw [List.foldl_cons, happend]
      exact ih _ (happend ▸ h)
  exact key records empty h

theorem forall₂_insertInto (hS : ∀ a b, S a b → a.name = b.name) (hr : S r r')
    (h : List.Forall₂ S records records') :
    List.Forall₂ S (insertInto r records) (insertInto r' records') := by
  induction h with
  | nil => exact .cons hr .nil
  | cons hab htail ih =>
    rw [insertInto, insertInto, hS _ _ hab, hS _ _ hr]
    split
    · exact .cons hr htail
    · exact .cons hab ih

theorem forall₂_ofList (hS : ∀ a b, S a b → a.name = b.name)
    (h : List.Forall₂ S records records') :
    List.Forall₂ S (ofList records).toList (ofList records').toList := by
  have key (rs rs' : Records) (hrs : List.Forall₂ S rs.toList rs'.toList) :
      List.Forall₂ S (records.foldl insert rs).toList (records'.foldl insert rs').toList := by
    induction h generalizing rs rs' with
    | nil => exact hrs
    | cons hab _ ih => exact ih _ _ (forall₂_insertInto hS hab hrs)
  exact key empty empty .nil

/-- In related collections with the same names, the records of a name are related. -/
theorem get?_rel {S : Record → Record → Prop} (hS : ∀ r r', S r r' → r.name = r'.name)
    (h : List.Forall₂ S rs.toList rs'.toList) (name : Text) :
    Option.Rel S (rs.get? name) (rs'.get? name) := by
  have key {records records' : List Record} (h : List.Forall₂ S records records') :
      Option.Rel S (records.find? fun r => r.name = name)
        (records'.find? fun r => r.name = name) := by
    induction h with
    | nil => exact .none
    | @cons r r' _ _ hr _ ih =>
      rw [List.find?_cons, List.find?_cons, hS r r' hr]
      split
      · exact .some hr
      · exact ih
  exact key h

theorem get?_map_congr {α : Type} {f : Record → α}
    (h : List.Forall₂ (fun r r' => r.name = r'.name ∧ f r = f r') rs.toList rs'.toList)
    (name : Text) : (rs.get? name).map f = (rs'.get? name).map f := by
  have hrel := get?_rel (fun _ _ hr => hr.1) h name
  generalize rs.get? name = x, rs'.get? name = y at hrel
  cases hrel with
  | none => rfl
  | some hr => exact congrArg some hr.2

/-- What an entry says: its value, and its type as a text. -/
theorem entryRecord_eq_ok {name : Text} {entry : Json} (h : entryRecord name entry = .ok r) :
    ∃ value type, r = { name, value, type } := by
  unfold entryRecord at h
  split at h
  next members =>
    obtain ⟨value, -, h⟩ := bind_eq_ok.1 h
    obtain ⟨type, -, h⟩ := bind_eq_ok.1 h
    exact ⟨value, type, (Except.ok.inj h).symm⟩
  next =>
    obtain ⟨value, -, h⟩ := bind_eq_ok.1 h
    exact ⟨value, _, (Except.ok.inj h).symm⟩

theorem names_of_entries {entries : List (Text × Json)}
    (h : List.Forall₂ (fun e r => entryRecord e.1 e.2 = .ok r) entries records) :
    entries.map Prod.fst = records.map Record.name := by
  rw [← List.forall₂_eq_eq_eq, List.forall₂_map_left_iff, List.forall₂_map_right_iff]
  refine h.imp fun e r hr => ?_
  obtain ⟨value, type, rfl⟩ := entryRecord_eq_ok hr
  rfl

/-- A snapshot is read entry by entry; entries without a name count for nothing. -/
theorem ofSnapshot_eq_ok_iff : ofSnapshot snapshot = .ok base ↔
    ∃ records, List.Forall₂ (fun e r => entryRecord e.1 e.2 = .ok r)
      (snapshot.filter fun e => !e.1.isEmpty) records ∧ ofList records = base := by
  unfold ofSnapshot
  rw [bind_eq_ok]
  refine exists_congr fun records => ?_
  rw [mapM_eq_ok_iff]
  exact and_congr_right fun _ => ⟨Except.ok.inj, congrArg Except.ok⟩

theorem isBare_ofSnapshot (h : ofSnapshot snapshot = .ok base) (hb : b ∈ base.toList) :
    b.IsBare := by
  obtain ⟨records, hrecords, rfl⟩ := ofSnapshot_eq_ok_iff.1 h
  obtain ⟨e, -, he⟩ := exists_of_mem_forall₂ hrecords.flip (mem_ofList hb)
  obtain ⟨value, type, rfl⟩ := entryRecord_eq_ok he
  rfl

/-! ### Order -/

theorem get?_of_perm (h : rs.toList.Perm rs'.toList) (name : Text) :
    rs.get? name = rs'.get? name := by
  ext r
  rw [get?_eq_some_iff, get?_eq_some_iff, h.mem_iff]

/-- The entries of a snapshot in another order give the same records in another order. -/
theorem exists_ofSnapshot_of_perm (hp : snapshot.Perm snapshot')
    (hd : (snapshot.map Prod.fst).Nodup) (h : ofSnapshot snapshot = .ok base) :
    ∃ base', ofSnapshot snapshot' = .ok base' ∧ base'.toList.Perm base.toList := by
  obtain ⟨records, hrecords, rfl⟩ := ofSnapshot_eq_ok_iff.1 h
  obtain ⟨records', hrecords', hperm⟩ :=
    List.perm_comp_forall₂ (hp.symm.filter fun e => !e.1.isEmpty) hrecords
  have hnames : (records.map Record.name).Nodup := by
    rw [← names_of_entries hrecords]
    exact hd.sublist (List.filter_sublist.map _)
  refine ⟨ofList records', ofSnapshot_eq_ok_iff.2 ⟨records', hrecords', rfl⟩, ?_⟩
  rwa [toList_ofList hnames, toList_ofList ((hperm.map _).nodup_iff.2 hnames)]

end Records

end VariableReport
