import VariableReport.Settings.File
import VariableReport.Proofs.Json.Rendered

/-!
# Written settings are read back

Settings are written with all their fields, each in its type, so a library builds from them the
settings that they fill: the written ones, with lists of every length and texts of all characters
(`build_toJson`). What it has built is checked, so written settings are read as themselves when they
can be used, and otherwise the very reason is given for which they cannot (`ofText_text_eq`).
-/

namespace VariableReport.Settings
open Json

theorem texts?_map_str (ts : List Text) : texts? (ts.map .str) = some ts := by
  induction ts with
  | nil => rfl
  | cons t ts ih => rw [List.map_cons, texts?, ih, Option.map_some]

theorem textsOf_of_find? {members : Members} {field : Text} {defaults : List Text}
    (ts : List Text) (h : find? field members = some (.array (ts.map .str))) :
    textsOf members field defaults = ts := by
  rw [textsOf, h]
  dsimp only
  rw [texts?_map_str, Option.getD_some]

theorem fill_members (s : Settings) : fill s.members = s := by
  rw [fill, textsOf_of_find? s.symbols rfl, textsOf_of_find? s.unitConstructors rfl]
  rfl

theorem strayName?_members (s : Settings) : strayName? s.members = none := rfl

theorem fits_members (s : Settings) : ∀ m ∈ s.members, fits m.1 m.2 = true := by
  have htexts {field : Text} (ts : List Text) (h : listNames.contains field = true) :
      fits field (.array (ts.map .str)) = true := by
    rw [fits, h, texts?_map_str]
    rfl
  simp only [members, List.mem_cons, List.not_mem_nil, or_false]
  rintro m (rfl | rfl | rfl | rfl | rfl | rfl | rfl | rfl | rfl | rfl)
  · rfl
  · rfl
  · rfl
  · exact htexts _ rfl
  · rfl
  · rfl
  · rfl
  · exact htexts _ rfl
  · rfl
  · rfl

/-- The names of the fields as they are written. -/
def writtenNames : List Text :=
  ["auto_scale_marker", "include_unplaced", "report_suffix", "symbols", "table_directive", "title",
    "true_value_marker", "unit_constructors", "unit_type", "vars_suffix"].map String.toList

theorem textual_toJson (s : Settings) : Textual 2 s.toJson := by
  have hnames : writtenNames.Nodup := by decide
  have htexts (ts : List Text) : Textual 1 (.array (ts.map .str)) := by
    refine .array fun j hj => ?_
    obtain ⟨t, -, rfl⟩ := List.mem_map.1 hj
    exact .str 0 t
  refine .object hnames fun m hm => ?_
  simp only [members, List.mem_cons, List.not_mem_nil, or_false] at hm
  rcases hm with rfl | rfl | rfl | rfl | rfl | rfl | rfl | rfl | rfl | rfl
  · exact .str 1 _
  · exact .bool 1 _
  · exact .str 1 _
  · exact htexts _
  · exact .str 1 _
  · exact .str 1 _
  · exact .str 1 _
  · exact htexts _
  · exact .str 1 _
  · exact .str 1 _

variable [Builder]

theorem build_toJson (s : Settings) : Builder.build s.toJson = .ok s := by
  rw [toJson, Builder.fill s.strayName?_members s.fits_members, fill_members]

/-- Settings survive being written and read when they can be used, and only then: otherwise the
reader says why they cannot. -/
theorem ofText_text_eq [Host] (s : Settings) : ofText s.text =
    match s.misuse? with
    | none => .ok s
    | some m => .error (.settings (.misuse m)) := by
  have hread : Json.read s.text .settings = .ok s.toJson :=
    read_render s.textual_toJson (Nat.le_trans (by decide) (Host.jsonDepth_ge .settings))
  rw [ofText, hread]
  change (ofJson s.toJson).mapError Failure.settings = _
  rw [ofJson, build_toJson]
  change (check s).mapError Failure.settings = _
  rw [check]
  cases s.misuse? with
  | none => rfl
  | some m => rfl

end VariableReport.Settings
