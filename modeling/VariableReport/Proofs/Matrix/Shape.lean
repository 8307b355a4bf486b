import VariableReport.Matrix
import VariableReport.Proofs.Outcome

/-!
# Rows of a matrix

A list of values is a matrix when it has a row, the rows are lists or tuples of one positive length,
and their items are whole numbers or doubles (`Rectangular`). The matrix that is read from such a
list has the items of the rows for entries, in their order (`ofRows?_eq_some_iff`,
`exists_ofRows?_iff`).

Of a library of arrays its laws decide what is read, so that the same comes of all of them
(`read?_eq`).
-/

namespace VariableReport.Matrix

variable {v : Value} {items rows : List Value} {e : Entry} {m : Matrix} {width : Nat}

/-- The value is a list or a tuple of these items. -/
inductive Lists : Value → List Value → Prop
  | list (items : List Value) : Lists (.list items) items
  | tuple (items : List Value) : Lists (.tuple items) items

/-- The value is a whole number or a double; a truth value is neither. -/
inductive IsNumber : Value → Prop
  | int (n : Int) : IsNumber (.int n)
  | float (d : Double) : IsNumber (.float d)

/-- There is a row, and all rows are lists or tuples of as many numbers. -/
structure Rectangular (rows : List Value) (width : Nat) : Prop where
  rows_ne_nil : rows ≠ []
  width_pos : 0 < width
  row : ∀ v ∈ rows, ∃ items, Lists v items ∧ items.length = width ∧ ∀ w ∈ items, IsNumber w

/-- The matrix has the items of the rows for entries, as many in each row. -/
structure Reads (rows : List Value) (m : Matrix) (width : Nat) : Prop where
  rows_ne_nil : m.rows ≠ []
  width_pos : 0 < width
  lists : List.Forall₂ (fun v row => Lists v (row.map Entry.toValue)) rows m.rows
  length_eq : ∀ row ∈ m.rows, row.length = width

/-! ### Reading rows -/

theorem all?_eq_some_iff {α β : Type} {f : α → Option β} {as : List α} {bs : List β} :
    all? f as = some bs ↔ List.Forall₂ (fun a b => f a = some b) as bs := by
  induction as generalizing bs with
  | nil =>
    rw [List.forall₂_nil_left_iff]
    exact ⟨fun h => (Option.some.inj h).symm, fun h => h ▸ rfl⟩
  | cons a as ih =>
    rw [List.forall₂_cons_left_iff, all?, Option.bind_eq_bind, Option.bind_eq_some_iff]
    refine exists_congr fun b => ?_
    rw [exists_and_left]
    refine and_congr_right fun _ => ?_
    rw [Option.bind_eq_bind, Option.bind_eq_some_iff]
    simp only [ih, Option.some.injEq, eq_comm]

/-- What is read one by one is written one by one. -/
theorem all?_eq_some_iff_map {α β : Type} {f : α → Option β} {g : β → α} {as : List α} {bs : List β}
    (h : ∀ a b, f a = some b ↔ a = g b) : all? f as = some bs ↔ as = bs.map g := by
  simp only [all?_eq_some_iff, h]
  rw [← List.forall₂_map_right_iff, List.forall₂_eq_eq_eq]

theorem items?_eq_some_iff : items? v = some items ↔ Lists v items ∧ items ≠ [] := by
  constructor
  · intro h
    unfold items? at h
    split at h
    next =>
      split at h
      next => cases h
      next hne =>
        cases h
        exact ⟨.list _, by simpa using hne⟩
    next =>
      split at h
      next => cases h
      next hne =>
        cases h
        exact ⟨.tuple _, by simpa using hne⟩
    next => cases h
  · rintro ⟨hlists, hne⟩
    have hempty : items.isEmpty = false := by simpa using hne
    cases hlists <;> rw [items?, hempty] <;> rfl

theorem Entry.ofValue?_eq_some_iff : Entry.ofValue? v = some e ↔ v = e.toValue := by
  constructor
  · intro h
    unfold Entry.ofValue? at h
    split at h
    next => cases h; rfl
    next => cases h; rfl
    next => cases h
  · rintro rfl
    cases e <;> rfl

theorem Entry.isNumber_toValue (e : Entry) : IsNumber e.toValue := by
  cases e with
  | int n => exact .int n
  | float d => exact .float d

/-- Numbers are entries. -/
theorem exists_entries (h : ∀ w ∈ items, IsNumber w) :
    ∃ row : List Entry, items = row.map Entry.toValue := by
  have hentry : ∀ w ∈ items, ∃ e : Entry, w = e.toValue := by
    intro w hw
    cases h w hw with
    | int n => exact ⟨.int n, rfl⟩
    | float d => exact ⟨.float d, rfl⟩
  obtain ⟨row, hrow⟩ := Outcome.exists_forall₂_iff.2 hentry
  refine ⟨row, ?_⟩
  rwa [← List.forall₂_map_right_iff, List.forall₂_eq_eq_eq] at hrow

theorem all?_all?_ofValue?_eq_some_iff {lists : List (List Value)} {entries : List (List Entry)} :
    all? (all? Entry.ofValue?) lists = some entries ↔
      lists = entries.map fun row => row.map Entry.toValue :=
  all?_eq_some_iff_map fun _ _ => all?_eq_some_iff_map fun _ _ => Entry.ofValue?_eq_some_iff

theorem Reads.row_ne_nil (h : Reads rows m width) {row : List Entry} (hrow : row ∈ m.rows) :
    row ≠ [] := by
  rintro rfl
  exact Nat.ne_of_gt h.width_pos (h.length_eq [] hrow).symm

theorem rows?_eq_some_iff {entries : List (List Entry)} : rows? rows = some entries ↔
    List.Forall₂ (fun v row => Lists v (row.map Entry.toValue)) rows entries ∧ entries ≠ [] ∧
      ∀ row ∈ entries, row ≠ [] := by
  simp only [rows?, Option.bind_eq_bind, Option.bind_eq_some_iff, all?_all?_ofValue?_eq_some_iff]
  constructor
  · rintro ⟨_, hlists, entries', rfl, h⟩
    rw [all?_eq_some_iff, List.forall₂_map_right_iff] at hlists
    split at h
    next => cases h
    next hne =>
      cases h
      refine ⟨hlists.imp fun _ _ h => (items?_eq_some_iff.1 h).1, by simpa using hne, ?_⟩
      intro row hrow
      obtain ⟨v, -, hv⟩ := Outcome.exists_of_mem_forall₂ hlists.flip hrow
      simpa using (items?_eq_some_iff.1 hv).2
  · rintro ⟨hlists, hne, hrows⟩
    refine ⟨_, ?_, entries, rfl, if_neg (by simpa using hne)⟩
    rw [all?_eq_some_iff, List.forall₂_map_right_iff]
    refine (Outcome.forall₂_and_right hlists hrows).imp ?_
    exact fun _ _ hrow => items?_eq_some_iff.2 ⟨hrow.1, by simpa using hrow.2⟩

theorem isEven_iff {entries : List (List Entry)} (hne : entries ≠ []) :
    isEven entries = true ↔ ∃ width, ∀ row ∈ entries, row.length = width := by
  simp only [isEven, List.all_eq_true, decide_eq_true_eq]
  refine ⟨fun h => ⟨_, h⟩, ?_⟩
  rintro ⟨width, h⟩ row hrow
  obtain ⟨first, more, rfl⟩ := List.exists_cons_of_ne_nil hne
  rw [h row hrow, List.headD_cons, h first List.mem_cons_self]

/-- The matrix of rows that are of one length. -/
def ofRows? (rows : List Value) : Option Matrix :=
  (rows? rows).bind fun entries => if isEven entries then some ⟨entries⟩ else none

theorem ofRows?_eq_some_iff : ofRows? rows = some m ↔ ∃ width, Reads rows m width := by
  simp only [ofRows?, Option.bind_eq_some_iff, Option.ite_none_right_eq_some, Option.some.injEq]
  constructor
  · rintro ⟨entries, hentries, heven, rfl⟩
    obtain ⟨hlists, hne, hrows⟩ := rows?_eq_some_iff.1 hentries
    obtain ⟨width, hwidth⟩ := (isEven_iff hne).1 heven
    obtain ⟨row, hrow⟩ := List.exists_mem_of_ne_nil entries hne
    refine ⟨width, hne, ?_, hlists, hwidth⟩
    rw [← hwidth row hrow]
    exact List.length_pos_of_ne_nil (hrows row hrow)
  · rintro ⟨width, h⟩
    refine ⟨m.rows, ?_, (isEven_iff h.rows_ne_nil).2 ⟨width, h.length_eq⟩, rfl⟩
    exact rows?_eq_some_iff.2 ⟨h.lists, h.rows_ne_nil, fun row => h.row_ne_nil⟩

/-- A list of values is a matrix exactly when it has the shape of one. -/
theorem exists_ofRows?_iff :
    (∃ m, ofRows? rows = some m) ↔ ∃ width, Rectangular rows width := by
  simp only [ofRows?_eq_some_iff]
  rw [exists_comm]
  refine exists_congr fun width => ⟨?_, fun h => ?_⟩
  · rintro ⟨m, h⟩
    refine ⟨?_, h.width_pos, fun v hv => ?_⟩
    · rintro rfl
      exact h.rows_ne_nil (List.forall₂_nil_left_iff.1 h.lists)
    · obtain ⟨row, hrow, hlists⟩ := Outcome.exists_of_mem_forall₂ h.lists hv
      refine ⟨_, hlists, ?_, ?_⟩
      · rw [List.length_map, h.length_eq row hrow]
      · intro w hw
        obtain ⟨e, -, rfl⟩ := List.mem_map.1 hw
        exact e.isNumber_toValue
  · have hrow : ∀ v ∈ rows, ∃ row : List Entry,
        Lists v (row.map Entry.toValue) ∧ row.length = width := by
      intro v hv
      obtain ⟨items, hlists, hlength, hnumbers⟩ := h.row v hv
      obtain ⟨row, rfl⟩ := exists_entries hnumbers
      exact ⟨row, hlists, by rwa [List.length_map] at hlength⟩
    obtain ⟨entries, hentries⟩ := Outcome.exists_forall₂_iff.2 hrow
    refine ⟨⟨entries⟩, ?_, h.width_pos, hentries.imp fun _ _ h => h.1, fun row hmem => ?_⟩
    · rintro rfl
      exact h.rows_ne_nil (List.forall₂_nil_right_iff.1 hentries)
    · obtain ⟨v, -, -, hlength⟩ := Outcome.exists_of_mem_forall₂ hentries.flip hmem
      exact hlength

/-- What is assumed of a library leaves it no choice. -/
theorem arrange_eq [Arrays] {rows : List (List Entry)} (hne : rows ≠ [])
    (hrows : ∀ row ∈ rows, row ≠ []) :
    Arrays.arrange rows =
      if isEven rows then
        if rows.all (fun row => row.all Entry.inRange) then .array 2 else .outOfRange
      else .ragged := by
  have hragged := Arrays.ragged hne hrows
  cases heven : isEven rows with
  | false => exact hragged.2 heven
  | true =>
    have houtOfRange := Arrays.outOfRange hne hrows heven
    cases hrange : rows.all fun row => row.all Entry.inRange with
    | false => exact houtOfRange.2 hrange
    | true =>
      cases harrange : Arrays.arrange rows with
      | ragged => cases heven.symm.trans (hragged.1 harrange)
      | outOfRange => cases hrange.symm.trans (houtOfRange.1 harrange)
      | array n =>
        obtain rfl := Arrays.dimensions hne hrows harrange
        rfl

/-- Of a list of values that is read from a text there is a matrix, unless a number is out of
range. -/
theorem read?_eq [Host] [Arrays] (t : Text) : read? t = (do
    match ← Listing.strict? t .matrix with
    | none => .ok none
    | some rows =>
      match ofRows? rows with
      | none => .ok none
      | some m =>
        if m.rows.all (fun row => row.all Entry.inRange) then .ok (some m)
        else .error .integerOutOfRange) := by
  rw [read?]
  refine bind_congr fun items? => ?_
  cases items? with
  | none => rfl
  | some values =>
    dsimp only
    rw [ofRows?]
    cases hrows : rows? values with
    | none => rfl
    | some entries =>
      obtain ⟨-, hne, hnonempty⟩ := rows?_eq_some_iff.1 hrows
      rw [Option.bind_some]
      dsimp only
      rw [arrange_eq hne hnonempty]
      cases isEven entries with
      | false => rfl
      | true =>
        cases hrange : entries.all fun row => row.all Entry.inRange with
        | false => simp [hrange]
        | true => simp [hrange]

end VariableReport.Matrix
