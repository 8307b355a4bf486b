import VariableReport.Proofs.Records.RoundTrip

/-!
# What a written record tells

The text of a collection is read back as the object that was written, with the names and the fields
in their order. Each field of a record stands under a name of its own (`find?_members`), and what
is found there is the value that was put there: an annotation that is absent has no member, so it is
told from an empty one. All but the place of a record can be read off, and the place is not written,
so two collections have one text exactly when they agree in everything else (`read_text_exact`).
-/

namespace VariableReport
open Json

variable {key name : Text} {ms ns : List (Text × Json)} {note : Option Json} {r r' : Record}

namespace Json

theorem find?_append (name : Text) (ms ns : List (Text × Json)) :
    find? name (ms ++ ns) = (find? name ms).or (find? name ns) := by
  induction ms with
  | nil => rfl
  | cons m ms ih =>
    obtain ⟨k, v⟩ := m
    rw [List.cons_append, find?, find?]
    split
    · rfl
    · exact ih

end Json

namespace Record

/-- The record as it is written: the number of its cell and its line are left out. -/
def withoutPlace (r : Record) : Record := { r with cellIndex := none, line := none }

theorem find?_member (name key : Text) (note : Option Json) :
    find? name (member key note) = if key = name then note else none := by
  cases note with
  | none => exact (ite_self _).symm
  | some j => rfl

/-- The fields that are found in a written record. -/
structure Tells (ms : List (Text × Json)) (r : Record) : Prop where
  value : find? "value".toList ms = some (.str r.value)
  type : find? "type".toList ms = some (.str r.type)
  expression : find? "expression".toList ms = r.expression.map .str
  replaced : find? "replaced".toList ms = r.replaced.map .str
  latexValue : find? "latexValue".toList ms = r.latexValue.map .str
  tableItems : find? "tableItems".toList ms = r.tableItems.map fun items => .array (items.map label)

theorem tells_members (r : Record) : Tells r.members r where
  value := rfl
  type := rfl
  expression := by simp [members, find?, find?_append, find?_member]
  replaced := by simp [members, find?, find?_append, find?_member]
  latexValue := by simp [members, find?, find?_append, find?_member]
  tableItems := by simp [members, find?, find?_append, find?_member]

theorem map_str_injective : Function.Injective (Option.map Json.str) :=
  Option.map_injective fun _ _ => Json.str.inj

theorem label_injective : Function.Injective label := by
  intro a b h
  cases a with
  | none => cases b with
    | none => rfl
    | some u => cases h
  | some t => cases b with
    | none => cases h
    | some u => rw [Json.str.inj h]

theorem map_labels_injective :
    Function.Injective (Option.map fun items : List (Option Text) => Json.array (items.map label)) :=
  Option.map_injective fun _ _ h => label_injective.list_map (Json.array.inj h)

/-- Members tell of one record only, up to its name and its place. -/
theorem Tells.eq_of_name (h : Tells ms r) (h' : Tells ms r') (hname : r.name = r'.name) :
    r.withoutPlace = r'.withoutPlace := by
  have hvalue := Json.str.inj (Option.some.inj (h.value.symm.trans h'.value))
  have htype := Json.str.inj (Option.some.inj (h.type.symm.trans h'.type))
  have hexpression := map_str_injective (h.expression.symm.trans h'.expression)
  have hreplaced := map_str_injective (h.replaced.symm.trans h'.replaced)
  have hlatex := map_str_injective (h.latexValue.symm.trans h'.latexValue)
  have hitems := map_labels_injective (h.tableItems.symm.trans h'.tableItems)
  unfold withoutPlace
  rw [hname, hvalue, htype, hexpression, hreplaced, hlatex, hitems]

/-- An entry of a written collection tells of one record only, up to its place. -/
theorem entry_eq_iff :
    (r.name, r.toJson) = (r'.name, r'.toJson) ↔ r.withoutPlace = r'.withoutPlace := by
  have hentry (r : Record) :
      (r.withoutPlace.name, r.withoutPlace.toJson) = (r.name, r.toJson) := rfl
  constructor
  · intro h
    obtain ⟨hname, hjson⟩ := Prod.mk.inj h
    have hmembers : r.members = r'.members := Json.object.inj hjson
    exact (hmembers ▸ tells_members r).eq_of_name (tells_members r') hname
  · intro h
    rw [← hentry r, h, hentry]

end Record

namespace Records

theorem toJson_eq_iff (rs rs' : Records) : rs.toJson = rs'.toJson ↔
    rs.toList.map Record.withoutPlace = rs'.toList.map Record.withoutPlace := by
  rw [toJson, toJson, Json.object.injEq, ← List.forall₂_eq_eq_eq, ← List.forall₂_eq_eq_eq,
    List.forall₂_map_left_iff, List.forall₂_map_right_iff, List.forall₂_map_left_iff,
    List.forall₂_map_right_iff]
  exact ⟨fun h => h.imp fun _ _ => Record.entry_eq_iff.1,
    fun h => h.imp fun _ _ => Record.entry_eq_iff.2⟩

/-- A collection is read back as the object that was written, and its text tells everything but the
places of the records: their order, their names, their values and types, and which annotations they
have, an empty one being different from one that is absent. -/
theorem read_text_exact [Host] (rs : Records) (site : Site) :
    Json.read rs.text site = .ok rs.toJson ∧
    ∀ rs' : Records, rs.text = rs'.text ↔
      rs.toList.map Record.withoutPlace = rs'.toList.map Record.withoutPlace := by
  have hread (rs : Records) : Json.read rs.text site = .ok rs.toJson := rs.read_text site
  refine ⟨hread rs, fun rs' => ?_⟩
  rw [← toJson_eq_iff]
  constructor
  · intro h
    exact Except.ok.inj ((hread rs).symm.trans (h ▸ hread rs'))
  · intro h
    exact congrArg (Json.render style) h

end Records

end VariableReport
