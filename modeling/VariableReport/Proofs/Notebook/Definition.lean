import VariableReport.Notebook.Definition
import VariableReport.Proofs.Outcome

/-!
# Places of definitions

Every definition is made by a statement of a code cell. The last definition of a name wins over
the earlier ones.
-/

namespace VariableReport.Notebook
open Outcome

variable {cells : List Cell} {ds : List Definition} {d : Definition}

theorem statement_of_mem_cellDefinitions {i : Nat} {c : Cell} (h : cellDefinitions i c = .ok ds)
    (hd : d ∈ ds) : c.kind = .code ∧ ∃ t, c.code = .ok t ∧
      ∃ s ∈ Source.statements t, definition? i s = some d := by
  unfold cellDefinitions at h
  split at h
  next hk =>
    obtain ⟨t, ht, rfl⟩ := map_eq_ok.1 h
    exact ⟨hk, t, ht, List.mem_filterMap.1 hd⟩
  next =>
    obtain rfl := Except.ok.inj h
    contradiction

theorem cellIndex_of_definition? {i : Nat} {s : Source.Statement} (h : definition? i s = some d) :
    d.cellIndex = i := by
  obtain ⟨x, -, rfl⟩ := Option.map_eq_some_iff.1 h
  rfl

theorem statement_of_mem_definitionsFrom {i : Nat} (h : definitionsFrom i cells = .ok ds)
    (hd : d ∈ ds) : i ≤ d.cellIndex ∧ ∃ c, cells[d.cellIndex - i]? = some c ∧ c.kind = .code ∧
      ∃ t, c.code = .ok t ∧ ∃ s ∈ Source.statements t, definition? d.cellIndex s = some d := by
  induction cells generalizing i ds with
  | nil =>
    obtain rfl := Except.ok.inj h
    contradiction
  | cons c cells ih =>
    rw [definitionsFrom] at h
    obtain ⟨first, h1, h⟩ := bind_eq_ok.1 h
    obtain ⟨rest, h2, h⟩ := bind_eq_ok.1 h
    obtain rfl := Except.ok.inj h
    rcases List.mem_append.1 hd with hd | hd
    · obtain ⟨hk, t, ht, s, hs, hdef⟩ := statement_of_mem_cellDefinitions h1 hd
      obtain rfl := cellIndex_of_definition? hdef
      exact ⟨Nat.le_refl _, c, by simp, hk, t, ht, s, hs, hdef⟩
    · obtain ⟨hi, c', hc, hrest⟩ := ih h2 hd
      refine ⟨by omega, c', ?_, hrest⟩
      rwa [show d.cellIndex - i = d.cellIndex - (i + 1) + 1 by omega, List.getElem?_cons_succ]

/-- A definition is made by a statement of a code cell. -/
theorem statement_of_mem_definitions (h : definitions cells = .ok ds) (hd : d ∈ ds) :
    ∃ c, cells[d.cellIndex]? = some c ∧ c.kind = .code ∧
      ∃ t, c.code = .ok t ∧ ∃ s ∈ Source.statements t, definition? d.cellIndex s = some d :=
  (statement_of_mem_definitionsFrom h hd).2

theorem code_of_mem_definitions (h : definitions cells = .ok ds) (hd : d ∈ ds) :
    ∃ c, cells[d.cellIndex]? = some c ∧ c.kind = .code := by
  obtain ⟨c, hc, hk, -⟩ := statement_of_mem_definitions h hd
  exact ⟨c, hc, hk⟩

/-- No later definition has the same name. -/
def Wins (ds : List Definition) (d : Definition) : Prop :=
  ∃ above below, ds = above ++ d :: below ∧ ∀ e ∈ below, e.name ≠ d.name

theorem Wins.mem (h : Wins ds d) : d ∈ ds := by
  obtain ⟨above, below, rfl, -⟩ := h
  simp

theorem lastDefinition?_eq_some_iff {name : Text} :
    lastDefinition? name ds = some d ↔ d.name = name ∧ Wins ds d := by
  unfold lastDefinition? Wins
  rw [List.find?_eq_some_iff_append]
  constructor
  · intro ⟨hname, later, earlier, hds, hlater⟩
    obtain rfl : d.name = name := by simpa using hname
    refine ⟨rfl, earlier.reverse, later.reverse, ?_, fun e he => ?_⟩
    · rw [List.reverse_eq_iff.1 hds]
      simp
    · simpa using hlater e (List.mem_reverse.1 he)
  · rintro ⟨rfl, above, below, rfl, hbelow⟩
    refine ⟨by simp, below.reverse, above.reverse, by simp, fun e he => ?_⟩
    simpa using hbelow e (List.mem_reverse.1 he)

theorem lastDefinition?_eq_none_iff {name : Text} :
    lastDefinition? name ds = none ↔ ∀ d ∈ ds, d.name ≠ name := by
  simp [lastDefinition?]

end VariableReport.Notebook
