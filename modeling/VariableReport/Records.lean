import VariableReport.Json.Printer
import VariableReport.Record

/-!
# Collections of records

A collection lists its records in order and holds at most one record of each name. A
record that is put at a name that is there takes the place of the old one; any other
record comes last. Annotating changes records where they are.
-/

namespace VariableReport

structure Records where
  toList : List Record := []
  distinct : (toList.map Record.name).Nodup := by simp

namespace Records

def empty : Records := {}

def names (rs : Records) : List Text := rs.toList.map Record.name

def size (rs : Records) : Nat := rs.toList.length

def get? (rs : Records) (name : Text) : Option Record :=
  rs.toList.find? fun r => r.name = name

def contains (rs : Records) (name : Text) : Bool := (rs.get? name).isSome

def insertInto (r : Record) : List Record → List Record
  | [] => [r]
  | s :: rest => if s.name = r.name then r :: rest else s :: insertInto r rest

theorem names_insertInto (r : Record) (records : List Record) :
    (insertInto r records).map Record.name =
      if r.name ∈ records.map Record.name then records.map Record.name
      else records.map Record.name ++ [r.name] := by
  induction records with
  | nil => simp [insertInto]
  | cons s rest ih =>
    rw [insertInto]
    by_cases h : s.name = r.name
    · simp [h]
    · simp only [h, if_false, List.map_cons, ih, List.mem_cons, Ne.symm h, false_or]
      split <;> simp

theorem nodup_insertInto (r : Record) {records : List Record}
    (h : (records.map Record.name).Nodup) :
    ((insertInto r records).map Record.name).Nodup := by
  rw [names_insertInto]
  split
  · exact h
  · rw [List.nodup_append]
    refine ⟨h, by simp, ?_⟩
    simp only [List.mem_singleton]
    rintro a ha b rfl rfl
    contradiction

/-- Put a record at its name. -/
def insert (rs : Records) (r : Record) : Records :=
  ⟨insertInto r rs.toList, nodup_insertInto r rs.distinct⟩

def ofList (records : List Record) : Records := records.foldl insert empty

/-- The collection without the record of a name. -/
def erase (rs : Records) (name : Text) : Records where
  toList := rs.toList.filter fun r => r.name ≠ name
  distinct := rs.distinct.sublist (List.filter_sublist.map _)

/-- The collection with every record changed by `f`, which keeps names. -/
def annotate (rs : Records) (f : Record → Record)
    (keeps : ∀ r, (f r).name = r.name := by intros; rfl) : Records where
  toList := rs.toList.map f
  distinct := by
    have h : (rs.toList.map f).map Record.name = rs.toList.map Record.name := by
      simp [Function.comp_def, keeps]
    rw [h]
    exact rs.distinct

/-- The collection as one object, written with an indentation of four and with all
characters as they are. -/
def toJson (rs : Records) : Json := .object (rs.toList.map fun r => (r.name, r.toJson))

def style : Json.Style := { indent := some 4, ascii := false }

def text (rs : Records) : Text := rs.toJson.render style

@[simp] theorem names_annotate (rs : Records) (f : Record → Record)
    (keeps : ∀ r, (f r).name = r.name) : (rs.annotate f keeps).names = rs.names := by
  simp [names, annotate, Function.comp_def, keeps]

theorem name_of_get? {rs : Records} {name : Text} {r : Record} (h : rs.get? name = some r) :
    r.name = name := by
  simpa using List.find?_some h

theorem get?_eq_some_iff {rs : Records} {name : Text} {r : Record} :
    rs.get? name = some r ↔ r ∈ rs.toList ∧ r.name = name := by
  have key : ∀ records : List Record, (records.map Record.name).Nodup →
      ∀ r ∈ records, records.find? (fun s => s.name = r.name) = some r := by
    intro records
    induction records with
    | nil => simp
    | cons s rest ih =>
      intro hd r hr
      simp only [List.map_cons, List.nodup_cons] at hd
      rcases List.mem_cons.1 hr with rfl | hr
      · simp
      · have hne : s.name ≠ r.name := fun he => hd.1 (he ▸ List.mem_map_of_mem hr)
        simp [hne, ih hd.2 r hr]
  constructor
  · intro h
    exact ⟨List.mem_of_find?_eq_some h, name_of_get? h⟩
  · rintro ⟨hr, rfl⟩
    exact key _ rs.distinct r hr

end Records

end VariableReport
